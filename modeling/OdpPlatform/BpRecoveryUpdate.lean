import OdpPlatform.BpRecoveryFlowRuns
import OdpPlatform.BootPartitionLayout
import OdpPlatform.SreFmpGranted

/-! # From the update to the RAM disk

The FMP library writes the partition in one boot, BpRecoveryLoader reads it in another; what it
registers as a RAM disk is the image of the update. -/
namespace BpRecoveryUpdate

open ByteBuffer InteractionProgram InteractionContract InteractionTraces InteractionMonitor
open FirmwareServices SreLoaderServices BpRecoveryLoader BpRecoveryFlow BpRecoveryFlowRuns
open SreStorageNvme SreStorageGeometry SreFmpDevice SreFmpImage SreFmpSetImage BootPartitionDevice
open SreFmpGranted (setImage_completes updateEnv_supplies)
open BootPartitionLayout (IsLogPageRead Serves Device.logPage step_read setImage_content)

theorem terminates_call_bind {α : Type} {c : LoaderCall} {f : LoaderAnswer c → Loader α}
    (hf : ∀ r, Terminates (f r)) : Terminates (call c >>= f) := hf

theorem terminates_writeResultToNvRam (gResult : BplRecord) :
    Terminates (writeResultToNvRam gResult) := fun _ => trivial

theorem terminates_fail (gResult : BplRecord) (status : Status) :
    Terminates (fail gResult status) := fun _ => trivial

theorem probeMaxTransfer_pos :
    Meets .free (fun _ chunk => 0 < chunk) (firmware.program probeMaxTransfer) [] := by
  refine ⟨trivial, ?_⟩
  intro completion _
  change Meets .free _ (firmware.program
    (if completion.status.isError = true then _ else _)) _
  have hdefault : 0 < readChunkDefault := by decide
  split
  · exact hdefault
  · exact (chunkFor_size _).1

theorem terminates_loadBpLoop {gResult : BplResult} {bpId : UInt8}
    {bpSize chunk pageAddr pages : ℕ} (hchunk : 0 < chunk) : ∀ {fuel bpOff : ℕ} {dest : Bytes},
      bpSize - bpOff < fuel →
        Terminates (loadBpLoop gResult bpId bpSize chunk pageAddr pages fuel bpOff dest) := by
  intro fuel
  induction fuel with
  | zero => exact fun h => absurd h (Nat.not_lt_zero _)
  | succ fuel ih =>
    intro bpOff dest hfuel
    unfold loadBpLoop
    by_cases hmore : bpOff < bpSize
    · rw [if_pos hmore]
      intro completion
      change Terminates (if _ then _ else _)
      split
      · exact fun _ => trivial
      · apply ih
        split <;> omega
    · rw [if_neg hmore]
      trivial

theorem terminates_loadBpIntoPages {gResult : BplResult} {bpId : UInt8} {bpSize chunk : ℕ}
    (hchunk : 0 < chunk) : Terminates (loadBpIntoPages gResult bpId bpSize chunk) := by
  rintro ⟨status, pageAddr⟩
  change Terminates (if status.isError = true then _ else _)
  split
  · trivial
  · exact terminates_loadBpLoop hchunk (by omega)

theorem terminates_findFatHandle (ramDp : PathInstance) (handles : List Handle) :
    Terminates (findFatHandle ramDp handles) := by
  induction handles with
  | nil => trivial
  | cons handle rest ih =>
    apply terminates_call_bind
    rintro ⟨status, dp⟩
    dsimp only
    split
    · exact ih
    split
    · exact ih
    split
    · trivial
    · exact ih

theorem terminates_bootVolume (imageHandle : Handle) (gResult : BplRecord) (fatHandle : Handle) :
    Terminates (bootVolume imageHandle gResult fatHandle) := by
  apply terminates_call_bind
  intro bootDp
  cases bootDp with
  | none => exact terminates_fail _ _
  | some bootDp =>
    apply terminates_call_bind
    rintro ⟨status, newImage⟩
    apply terminates_call_bind
    intro _
    dsimp only
    split
    · exact terminates_fail _ _
    · apply composes_terminates.bind (terminates_writeResultToNvRam _)
      intro _
      apply terminates_call_bind
      exact fun status => terminates_fail _ status

theorem terminates_chainload (imageHandle : Handle) (gResult : BplRecord) (ramDp : PathInstance) :
    Terminates (chainload imageHandle gResult ramDp) := by
  apply composes_terminates.bind (terminates_writeResultToNvRam _)
  intro _
  apply terminates_call_bind
  rintro ⟨status, ramHandle, _⟩
  dsimp only
  split
  · exact terminates_fail _ _
  apply terminates_call_bind
  intro _
  apply terminates_call_bind
  rintro ⟨status, sfsHandles⟩
  dsimp only
  split
  · exact terminates_fail _ _
  apply composes_terminates.bind (terminates_findFatHandle ramDp sfsHandles)
  intro found
  apply terminates_call_bind
  intro _
  cases found with
  | none => exact terminates_fail _ _
  | some fatHandle => exact terminates_bootVolume _ _ _

theorem terminates_registerRamDisk (imageHandle : Handle) (gResult : BplRecord)
    (loaded : LoadedPages) : Terminates (registerRamDisk imageHandle gResult loaded) := by
  apply terminates_call_bind
  rintro ⟨status, _⟩
  dsimp only
  split
  · exact terminates_fail _ _
  apply terminates_call_bind
  rintro ⟨status, ramDp⟩
  dsimp only
  split
  · exact terminates_fail _ _
  apply composes_terminates.bind (terminates_writeResultToNvRam _)
  intro _
  apply composes_terminates.bind (terminates_writeResultToNvRam _)
  exact fun _ => terminates_chainload _ _ _

theorem terminates_loadBootPartition (imageHandle : Handle) (gResult : BplRecord) :
    Terminates (loadBootPartition imageHandle gResult) := by
  have hprobe : Terminates (firmware.program probeMaxTransfer) := by
    apply firmware.terminates_program
    intro completion
    change Terminates (if _ then _ else _)
    split <;> trivial
  apply terminates_bind_meets hprobe probeMaxTransfer_pos
  intro chunk hchunk
  apply composes_terminates.bind (firmware.terminates_program (terminates_loadBpIntoPages hchunk))
  intro outcome
  dsimp only
  split
  · exact terminates_fail _ _
  apply composes_terminates.bind (terminates_writeResultToNvRam _)
  exact fun _ => terminates_registerRamDisk _ _ _

theorem terminates_connectAll : Terminates connectAll := by
  apply terminates_call_bind
  rintro ⟨status, handles⟩
  dsimp only
  split
  · have hconnect : ∀ (_ : Unit) (handle : Handle),
        Terminates (fw (.gBSConnectControllerRecursive handle)) := fun _ _ => terminates_call _
    apply composes_terminates.bind (composes_terminates.foldlM hconnect handles ())
    exact fun _ => terminates_call _
  · trivial

theorem terminates_appEntry (imageHandle : Handle) : Terminates (appEntry imageHandle) := by
  have hflow : Terminates (runSreFlow imageHandle) := by
    apply terminates_call_bind
    intro _
    apply composes_terminates.bind (terminates_writeResultToNvRam _)
    intro _
    apply composes_terminates.bind terminates_connectAll
    intro _
    apply terminates_call_bind
    rintro ⟨status, _⟩
    dsimp only
    split
    · exact terminates_fail _ _
    apply composes_terminates.bind (terminates_writeResultToNvRam _)
    exact fun _ => terminates_loadBootPartition _ _
  apply composes_terminates.bind hflow
  intro _
  apply terminates_call_bind
  exact fun _ => trivial

def loaderCommand : Event LoaderAnswer → Option Command
  | ⟨.firmware c, a⟩ => completed ⟨c, a⟩
  | _ => none

def loaderCommands (h : LoaderTrace) : List Command := h.filterMap loaderCommand

theorem loaderCommands_snoc (h : LoaderTrace) (e : Event LoaderAnswer) :
    loaderCommands (h ++ [e]) = loaderCommands h ++ (loaderCommand e).toList := by
  rw [loaderCommands, List.filterMap_append]
  cases he : loaderCommand e with
  | none => rw [List.filterMap_cons_none he]; rfl
  | some c => rw [List.filterMap_cons_some he]; rfl

/-- The controller serves the boot partition log page of the device, with some header. -/
def ServesLogPage (D : Device) (env : LoaderEnv) : Prop :=
  ∀ h p, IsLogPageRead p.command → ∃ header : Bytes, header.length = 16 ∧
    env h (.firmware (.passThru p)) =
      some ⟨.success, 0, 0, Device.logPage (D.after (loaderCommands h)) header p.command⟩

structure Provides (env : LoaderEnv) : Prop where
  watchdog : ∀ h timeout, (env h (.firmware (.gBSSetWatchdogTimer timeout))).isSome = true
  handles : ∀ h, (env h (.firmware (.gBSLocateHandleBuffer .allHandle))).isSome = true
  connects : ∀ h handle,
    (env h (.firmware (.gBSConnectControllerRecursive handle))).isSome = true
  freesPool : ∀ h, (env h (.firmware .freePool)).isSome = true
  freesPages : ∀ h address n, (env h (.firmware (.gBSFreePages address n))).isSome = true
  results : ∀ h name data, (env h (.setResultVariable name data)).isSome = true
  identify : ∀ h, (env h (.firmware (.passThru identifyPacket))).isSome = true
  protocols : ∀ h p, ∃ r, env h (.gBSLocateProtocol p) = some r ∧ r.1.isError = false
  pages : ∀ h n, ∃ r, env h (.firmware (.gBSAllocatePages n)) = some r ∧ r.1.isError = false

theorem logPage_reads {off n : ℕ} (hn : ChunkSize n) (hoff : off + n ≤ bpsizeBytes) :
    BootPartitionLayout.Reads (bpLogPagePacket targetBpid (lidBpHeaderBytes + off) n).command
      targetBpid.toUInt32 off n := by
  obtain ⟨hpos, hdword, hle⟩ := hn
  have hmax : readChunkMax = 524288 := by decide
  have hsize : bpsizeBytes = 1073741824 := by decide
  rw [BootPartitionLoaders.bpLogPagePacket_eq (by omega)]
  have hlength : (zeroed n).length = n := length_zeroed n
  have hreads := @BootPartitionLayout.logPagePacket_reads targetBpid (by decide) off (zeroed n)
    (by omega) (by omega) (by omega) (by omega)
  rwa [length_zeroed] at hreads

/-- What a served read of the log page leaves in the buffer. -/
theorem received_served {content : Bytes} {off n : ℕ} (hn : ChunkSize n)
    (hfits : off + n ≤ content.length) :
    received (bpLogPagePacket targetBpid (lidBpHeaderBytes + off) n)
      ⟨.success, 0, 0, window content off n⟩ = window content off n := by
  have hmax : readChunkMax = 524288 := by decide
  have hlen : (window content off n).length = n := by
    rw [length_window]
    omega
  have htransfer : (UInt32.ofNat n).toNat = n := by
    rw [UInt32.toNat_ofNat']
    have hle := hn.2.2
    omega
  change splice (zeroed n) 0 ((window content off n).take (UInt32.ofNat n).toNat) = _
  rw [htransfer, List.take_of_length_le hlen.le, splice_full (by rw [hlen, length_zeroed])]

theorem step_identify (D : Device) (r : Completion) : D.step (identifyPacket, r) = D := by
  simp [Device.step, identifyPacket, nvmeAdminIdentify, nvmeAdminFwImageDownloadCmd,
    nvmeAdminFwCommitCmd]

/-- Only a command completes or delivers. -/
theorem note_not_command {s : Flow} {e : Event LoaderAnswer}
    (he : ∀ p, e.call ≠ .firmware (.passThru p)) :
    (note s e).image = s.image ∧ loaderCommand e = none := by
  constructor
  · unfold note
    split
    case h_2 p c => exact absurd rfl (he p)
    all_goals try unfold refused
    all_goals try unfold listFreed
    all_goals repeat' split
    all_goals rfl
  · unfold loaderCommand
    split
    next c a =>
      cases c with
      | passThru p => exact absurd rfl (he p)
      | _ => rfl
    · rfl

/-- The loader leaves the device as it is, and what it holds is the front of the partition. -/
structure Follows (D : Device) (h : LoaderTrace) (s : Flow) : Prop where
  unchanged : D.after (loaderCommands h) = D
  image : s.image = (D.content targetBpid.toUInt32).take s.image.length

section Recovery

variable {imageHandle : Handle} {D : Device} {env : LoaderEnv}

theorem Follows.event (hserves : ServesLogPage D env)
    (hsize : bpsizeBytes ≤ (D.content targetBpid.toUInt32).length) {h : LoaderTrace} {s : Flow}
    (hs : Follows D h s) {e : Event LoaderAnswer} (hpermitted : Permitted imageHandle s e.call)
    (hanswer : e.answer = env h e.call) : Follows D (h ++ [e]) (note s e) := by
  by_cases hcommand : ∃ p, e.call = .firmware (.passThru p)
  · obtain ⟨p, hp⟩ := hcommand
    rcases e with ⟨c, a⟩
    dsimp only at hp hpermitted hanswer
    subst hp
    obtain ⟨-, -, ⟨rfl, -⟩ | ⟨-, n, hn, hfits, rfl⟩⟩ := hpermitted
    · cases a with
      | none => exact ⟨by rw [loaderCommands_snoc, after_append, hs.unchanged]; rfl, hs.image⟩
      | some r =>
        refine ⟨?_, hs.image⟩
        rw [loaderCommands_snoc, after_append, hs.unchanged]
        exact step_identify D r
    · have hreads := logPage_reads hn hfits
      obtain ⟨header, hheader, henv⟩ := hserves h _ hreads.isRead
      have hdata := hreads.logPage hheader D
      rw [hs.unchanged, hdata] at henv
      rw [henv] at hanswer
      subst hanswer
      have hreceived :=
        @received_served (D.content targetBpid.toUInt32) s.image.length n hn (by omega)
      have hwindow : (window (D.content targetBpid.toUInt32) s.image.length n).length = n := by
        rw [length_window]
        omega
      constructor
      · rw [loaderCommands_snoc, after_append, hs.unchanged]
        exact step_read D hreads.isRead.1
          ⟨.success, 0, 0, window (D.content targetBpid.toUInt32) s.image.length n⟩
      · change s.image ++ received _ _ = (D.content targetBpid.toUInt32).take
          (s.image ++ received _ _).length
        rw [hreceived, List.length_append, hwindow, List.take_add, ← hs.image]
        rfl
  · obtain ⟨himage, hnone⟩ := note_not_command (s := s) fun p hp => hcommand ⟨p, hp⟩
    constructor
    · rw [loaderCommands_snoc, hnone, after_append, hs.unchanged]
      rfl
    · rw [himage]
      exact hs.image

theorem follows_guarded (hserves : ServesLogPage D env)
    (hsize : bpsizeBytes ≤ (D.content targetBpid.toUInt32).length) (h : LoaderTrace)
    (hguard : Guarded (fun h c => Permitted imageHandle ((flow imageHandle).state h) c) h)
    (hanswer : AnsweredBy env h) : Follows D h ((flow imageHandle).state h) := by
  refine guarded_induction (I := fun h => Follows D h ((flow imageHandle).state h)) ?_ ?_ h hguard
    hanswer
  · exact ⟨rfl, rfl⟩
  · intro h e hs hpermitted hanswered
    rw [Monitor.state_snoc]
    exact hs.event hserves hsize hpermitted hanswered

structure OnTheWay (s : Flow) : Prop where
  ramDp : s.ramDp = none
  blame : s.blame.isError = false

/-- Until a RAM disk is registered everything the loader asks for is granted. -/
theorem OnTheWay.event (hserves : ServesLogPage D env) (hprovides : Provides env)
    {h : LoaderTrace} {s : Flow} (hs : OnTheWay s) {e : Event LoaderAnswer}
    (hpermitted : Permitted imageHandle s e.call) (hanswer : e.answer = env h e.call)
    (hunregistered : ∀ base size content, e.call ≠ .ramDiskRegister base size content) :
    OnTheWay (note s e) ∧ e.answer.isSome = true := by
  have hno : ¬s.ramDp.isSome = true := by
    rw [hs.ramDp]
    decide
  have hfreed : listFreed s = s := by simp [listFreed, hs.ramDp]
  rcases e with ⟨c, a⟩
  dsimp only at hpermitted hanswer hunregistered ⊢
  unfold Permitted at hpermitted
  split at hpermitted
  next timeout => exact ⟨hs, hanswer ▸ hprovides.watchdog h _⟩
  next => exact ⟨hs, hanswer ▸ hprovides.handles h⟩
  next handle => exact ⟨hs, hanswer ▸ hprovides.connects h handle⟩
  next =>
    refine ⟨?_, hanswer ▸ hprovides.freesPool h⟩
    change OnTheWay (listFreed s)
    rwa [hfreed]
  next p =>
    obtain ⟨r, hr, hok⟩ := hprovides.protocols h p
    rw [hr] at hanswer
    subst hanswer
    refine ⟨?_, rfl⟩
    simp only [note, hok]
    cases p with
    | nvmExpressPassThru => exact ⟨hs.ramDp, hs.blame⟩
    | ramDisk => exact hs
  next name data => exact ⟨⟨hs.ramDp, hs.blame⟩, hanswer ▸ hprovides.results h name data⟩
  next p =>
    obtain ⟨-, -, ⟨rfl, -⟩ | ⟨-, n, hn, hfits, rfl⟩⟩ := hpermitted
    · refine ⟨?_, hanswer ▸ hprovides.identify h⟩
      cases a with
      | none => exact hs
      | some r => exact hs
    · obtain ⟨header, -, henv⟩ := hserves h _ (logPage_reads hn hfits).isRead
      rw [henv] at hanswer
      subst hanswer
      exact ⟨⟨hs.ramDp, hs.blame⟩, rfl⟩
  next n =>
    obtain ⟨r, hr, hok⟩ := hprovides.pages h n
    rw [hr] at hanswer
    subst hanswer
    refine ⟨?_, rfl⟩
    simp only [note, hok]
    exact ⟨hs.ramDp, hs.blame⟩
  next address n => exact ⟨⟨hs.ramDp, hs.blame⟩, hanswer ▸ hprovides.freesPages h address n⟩
  next base size content => exact absurd rfl (hunregistered base size content)
  next path =>
    obtain ⟨ramDp, hramDp, -⟩ := hpermitted
    rw [hs.ramDp] at hramDp
    cases hramDp
  next => exact absurd hpermitted.1 hno
  next => exact absurd hpermitted.1 hno
  next => exact absurd hpermitted.1 hno
  next => exact absurd hpermitted.1 hno
  next => exact absurd hpermitted.1 hno
  next =>
    rcases hpermitted.started with herror | ⟨hregistered, -⟩
    · rw [hs.blame] at herror
      cases herror
    · exact absurd hregistered hno
  next => exact hpermitted.elim

theorem onTheWay_guarded (hserves : ServesLogPage D env) (hprovides : Provides env)
    (h : LoaderTrace)
    (hguard : Guarded (fun h c => Permitted imageHandle ((flow imageHandle).state h) c) h)
    (hanswer : AnsweredBy env h)
    (hunregistered : ∀ e ∈ h, ∀ base size content, e.call ≠ .ramDiskRegister base size content) :
    OnTheWay ((flow imageHandle).state h) ∧ ∀ e ∈ h, e.answer.isSome = true := by
  refine guarded_induction (I := fun h => (∀ e ∈ h, ∀ base size content,
    e.call ≠ .ramDiskRegister base size content) →
      OnTheWay ((flow imageHandle).state h) ∧ ∀ e ∈ h, e.answer.isSome = true) ?_ ?_ h hguard hanswer
    hunregistered
  · exact fun _ => ⟨⟨rfl, rfl⟩, List.forall_mem_nil _⟩
  · intro h e ih hpermitted hanswered hunregistered
    obtain ⟨hbefore, hlast⟩ := List.forall_mem_append.mp hunregistered
    obtain ⟨hs, hall⟩ := ih hbefore
    obtain ⟨hnext, hsome⟩ := hs.event hserves hprovides hpermitted hanswered
      (hlast e (List.mem_singleton.mpr rfl))
    rw [Monitor.state_snoc]
    exact ⟨hnext, List.forall_mem_append.mpr ⟨hall, List.forall_mem_singleton.mpr hsome⟩⟩

/-- Somewhere in the history a RAM disk with this content is registered, and no other. -/
structure Registers (h : LoaderTrace) (content : Bytes) : Prop where
  registered : ∃ e ∈ h, ∃ base, e.call = .ramDiskRegister base content.length content
  only : ∀ e ∈ h, ∀ base size data, e.call = .ramDiskRegister base size data →
    size = content.length ∧ data = content

/-- Whatever the partition holds becomes the RAM disk. -/
theorem appEntry_registers (hserves : ServesLogPage D env) (hprovides : Provides env)
    (hsize : bpsizeBytes ≤ (D.content targetBpid.toUInt32).length) :
    Registers ((appEntry imageHandle).run env []).1
      ((D.content targetBpid.toUInt32).take bpsizeBytes) := by
  obtain ⟨hguard, hended⟩ := appEntry_guarded imageHandle env
  have hanswer := run_answeredBy (appEntry imageHandle) (answeredBy_nil env)
  generalize hrun : (appEntry imageHandle).run env [] = run at hguard hended hanswer ⊢
  have hlength : ((D.content targetBpid.toUInt32).take bpsizeBytes).length = bpsizeBytes :=
    List.length_take_of_le hsize
  have honly : ∀ e ∈ run.1, ∀ base size data, e.call = .ramDiskRegister base size data →
      size = bpsizeBytes ∧ data = (D.content targetBpid.toUInt32).take bpsizeBytes := by
    intro e he base size data hcall
    obtain ⟨pre, post, hsplit⟩ := List.append_of_mem he
    rw [hsplit] at hanswer hguard
    have hfollows := follows_guarded hserves hsize pre (guarded_initial hguard) hanswer.initial
    have hpermitted := hguard pre e post rfl
    rw [hcall] at hpermitted
    obtain ⟨-, hcomplete, hbytes, hdata, -⟩ := hpermitted
    have himage := hfollows.image
    rw [hcomplete] at himage
    exact ⟨hbytes, hdata.trans himage⟩
  refine ⟨?_, ?_⟩
  · by_contra hnone
    have hunregistered : ∀ e ∈ run.1, ∀ base size content,
        e.call ≠ .ramDiskRegister base size content := by
      intro e he base size content hcall
      obtain ⟨hbytes, hdata⟩ := honly e he base size content hcall
      apply hnone
      refine ⟨e, he, base, ?_⟩
      rw [hlength, hcall, hbytes, hdata]
    obtain ⟨hway, hall⟩ := onTheWay_guarded hserves hprovides run.1 hguard hanswer hunregistered
    cases hresult : run.2 with
    | some r =>
      rcases (hended r hresult).2.started with herror | ⟨hregistered, -⟩
      · rw [hway.blame] at herror
        cases herror
      · rw [hway.ramDp] at hregistered
        cases hregistered
    | none =>
      obtain ⟨τ, hτ, hperforms⟩ := performs_run (appEntry imageHandle) env []
      rw [hrun, hresult] at hperforms
      rw [hrun, List.nil_append] at hτ
      obtain ⟨pre, c, hlast⟩ := (terminates_appEntry imageHandle).unanswered hperforms
      have hsome := hall ⟨c, none⟩ (by rw [hτ, hlast]; exact List.mem_append_right _ (by simp))
      cases hsome
  · intro e he base size data hcall
    rw [hlength]
    exact honly e he base size data hcall

end Recovery

/-- Firmware that provides the services, with a device behind its controller. -/
def recoveryEnv (D : Device) : LoaderEnv := fun h c =>
  match c with
  | .firmware (.passThru p) =>
    if IsLogPageRead p.command then
      some ⟨.success, 0, 0,
        Device.logPage (D.after (loaderCommands h)) (List.replicate 16 0) p.command⟩
    else some ⟨.success, 0, 0, []⟩
  | .firmware (.gBSSetWatchdogTimer _) => some .success
  | .firmware (.gBSLocateHandleBuffer _) => some (.success, [])
  | .firmware (.gBSConnectControllerRecursive _) => some ()
  | .firmware .freePool => some ()
  | .firmware (.gBSFreePages _ _) => some ()
  | .firmware (.gBSAllocatePages _) => some (.success, 0x100000)
  | .setResultVariable _ _ => some .success
  | .gBSLocateProtocol _ => some (.success, 1)
  | _ => none

theorem recoveryEnv_serves (D : Device) : ServesLogPage D (recoveryEnv D) := by
  intro h p hp
  refine ⟨List.replicate 16 0, List.length_replicate, ?_⟩
  rw [recoveryEnv]
  exact if_pos hp

theorem recoveryEnv_provides (D : Device) : Provides (recoveryEnv D) where
  watchdog _ _ := rfl
  handles _ := rfl
  connects _ _ := rfl
  freesPool _ := rfl
  freesPages _ _ _ := rfl
  results _ _ _ := rfl
  identify _ := rfl
  protocols _ _ := ⟨_, rfl, rfl⟩
  pages _ _ := ⟨_, rfl, rfl⟩

def zeroDevice : Device := ⟨zeroed bpsizeBytes, fun _ => zeroed bpsizeBytes⟩

theorem appEntry_registers_zeroDevice :
    Registers ((appEntry 7).run (recoveryEnv zeroDevice) []).1
      ((zeroed bpsizeBytes).take bpsizeBytes) :=
  appEntry_registers (recoveryEnv_serves zeroDevice) (recoveryEnv_provides zeroDevice)
    (length_zeroed bpsizeBytes).ge

/-- A partition of the size that the loader reads. -/
def oneGiB : SreStorage := { oneBlock with mBlockCount := 8192 }

end BpRecoveryUpdate
