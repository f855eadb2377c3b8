import OdpPlatform.BpRecoveryFlow
import OdpPlatform.BootPartitionLoaders
import OdpPlatform.PatinaChainloadVolume

/-! # What BpRecoveryLoader reads, registers, starts and reports

The history is folded into what the controller has delivered, the RAM disk, the search for its
volume, and the status of the last call that refused. -/
namespace BpRecoveryFlowRuns

open ByteBuffer DevicePathNodes DevicePathChain InteractionProgram InteractionContract
open InteractionMonitor FirmwareServices SreLoaderServices BpRecoveryLoader BpRecoveryFlow
open NvmeBpWrite (int32Status compareMem)

theorem prefixSize_eq (dp : PathInstance) : prefixSize dp = (asBytes dp.nodes).length := by
  rw [prefixSize, getDevicePathSize, PathInstance.path,
    PatinaChainloadVolume.length_asBytes_endEntire, endDevicePathLength, Nat.add_sub_cancel]

theorem take_path (dp : PathInstance) : (asBytes dp.path).take (prefixSize dp) = asBytes dp.nodes := by
  rw [prefixSize_eq, PathInstance.path, asBytes_append, List.take_left]

/-- Nodes that are not the terminator cannot reach into it. -/
theorem prefix_nodes_of_path {p q : PathInstance} (h : p.nodes <+: q.path) : p.nodes <+: q.nodes := by
  rcases List.prefix_concat_iff.mp h with heq | hprefix
  · have hmem : endEntire ∈ p.nodes := by
      rw [heq]
      exact List.mem_append_right _ (List.mem_singleton.mpr rfl)
    exact absurd ⟨rfl, rfl⟩ (p.ordinary _ hmem).1
  · exact hprefix

/-- What the two size and byte comparisons decide. -/
theorem rooted_iff (ramDp dp : PathInstance) :
    (¬getDevicePathSize dp < prefixSize ramDp ∧
        compareMem (asBytes dp.path) (asBytes ramDp.path) (prefixSize ramDp) = true) ↔
      ramDp.nodes <+: dp.nodes := by
  rw [compareMem, beq_iff_eq, take_path]
  constructor
  · rintro ⟨-, htake⟩
    have hsplit := List.take_append_drop (prefixSize ramDp) (asBytes dp.path)
    rw [htake] at hsplit
    exact prefix_nodes_of_path
      (PatinaChainloadVolume.nodes_prefix ramDp.ordinary dp.chain hsplit.symm)
  · rintro ⟨rest, hrest⟩
    have hbytes : asBytes dp.path = asBytes ramDp.nodes ++ asBytes (rest ++ [endEntire]) := by
      rw [PathInstance.path, ← hrest, List.append_assoc, asBytes_append]
    constructor
    · rw [getDevicePathSize, prefixSize_eq, hbytes, List.length_append]
      omega
    · rw [prefixSize_eq, hbytes, List.take_left]

/-- `pages` holds address and count; `image` is what accepted reads of the log page delivered;
`asked` are the handles whose paths the search has looked at. -/
structure Flow where
  located : Bool := false
  pages : Option (ℕ × ℕ) := none
  image : Bytes := []
  lastNvme : UInt32 := 0
  ramDp : Option PathInstance := none
  handles : List Handle := []
  asked : List Handle := []
  volume : Option Handle := none
  bootDp : Option PathInstance := none
  newImage : Option Handle := none
  started : Option Status := none
  blame : Status := .success
  record : Bytes := []

def IsLogPage (p : Packet) : Prop := p.command.opcode = nvmeAdminGetLogPage

instance (p : Packet) : Decidable (IsLogPage p) := inferInstanceAs (Decidable (_ = _))

def refused (s : Flow) (status : Status) : Flow :=
  if status.isError = true then { s with blame := status } else s

def logPageRead (s : Flow) (p : Packet) (c : Completion) : Flow :=
  if c.Accepted then { s with image := s.image ++ received p c }
  else
    { s with
      lastNvme := (c.sct.toUInt32 <<< 8) ||| c.sc.toUInt32
      blame := if c.status.isError = true then c.status else efiDeviceError }

/-- The search ends at the first volume below the RAM disk. -/
def pathSeen (s : Flow) (h : Handle) (status : Status) (dp : PathInstance) : Flow :=
  { s with
    asked := s.asked ++ [h]
    volume :=
      if status.isError = false ∧ ∃ ramDp ∈ s.ramDp, ramDp.nodes <+: dp.nodes then some h
      else s.volume }

/-- When the list is freed, no volume is a reason to give up. -/
def listFreed (s : Flow) : Flow :=
  if s.ramDp.isSome = true ∧ s.volume = none then { s with blame := efiNotFound } else s

def note (s : Flow) : Event LoaderAnswer → Flow
  | ⟨.gBSLocateProtocol p, some r⟩ =>
    if r.1.isError = true then { s with blame := r.1 }
    else if p = .nvmExpressPassThru then { s with located := true }
    else s
  | ⟨.firmware (.passThru p), some c⟩ => if IsLogPage p then logPageRead s p c else s
  | ⟨.firmware (.gBSAllocatePages n), some r⟩ =>
    if r.1.isError = true then { s with blame := r.1 } else { s with pages := some (r.2, n) }
  | ⟨.firmware (.gBSFreePages _ _), _⟩ => { s with pages := none }
  | ⟨.ramDiskRegister _ _ _, some r⟩ =>
    if r.1.isError = true then { s with blame := r.1 } else { s with ramDp := some r.2 }
  | ⟨.firmware (.gBSLocateDevicePath _), some r⟩ => refused s r.1
  | ⟨.firmware (.gBSLocateHandleBuffer (.byProtocol .simpleFileSystem)), some r⟩ =>
    if r.1.isError = true then { s with blame := r.1 } else { s with handles := r.2 }
  | ⟨.gBSHandleDevicePath h, some r⟩ => pathSeen s h r.1 r.2
  | ⟨.firmware .freePool, _⟩ => listFreed s
  | ⟨.fileDevicePath _ _, some r⟩ =>
    if r.isNone = true then { s with blame := efiOutOfResources } else { s with bootDp := r }
  | ⟨.gBSLoadImage _ _, some r⟩ =>
    if r.1.isError = true then { s with blame := r.1 } else { s with newImage := some r.2 }
  | ⟨.gBSStartImage _, some r⟩ => { s with started := some r, blame := r }
  | ⟨.setResultVariable _ data, _⟩ => { s with record := data }
  | _ => s

def Complete (s : Flow) : Prop := s.image.length = bpsizeBytes

instance (s : Flow) : Decidable (Complete s) := inferInstanceAs (Decidable (_ = _))

def recordOf (s : Flow) (phase : BplPhase) (chainloadAttempted lastEfiStatus : UInt32) :
    BplRecord where
  phaseReached := phase
  ramDiskRegistered := if s.ramDp.isSome = true then 1 else 0
  chainloadAttempted := chainloadAttempted
  chainloadImageLoaded := if s.newImage.isSome = true then 1 else 0
  bpBytesRead := if Complete s then bpsizeBytes else 0
  ramDiskBaseAddr := if Complete s then (s.pages.map Prod.fst).getD 0 else 0
  lastEfiStatus := lastEfiStatus
  loading :=
    { lastNvmeStatus := s.lastNvme
      first32Bytes := if Complete s then s.image.take 32 else zeroed 32 }

def phaseOf (s : Flow) : BplPhase :=
  if Complete s then .bpLoaded else if s.located = true then .passthruLocated else .init

def Told (s : Flow) (data : Bytes) : Prop :=
  if s.ramDp.isSome = true then
    data = (recordOf s .ramdiskRegistered 0 0).bytes ∨ data = (recordOf s .done 0 0).bytes ∨
      ∃ last, (last = 0 ∨ last = int32Status s.blame) ∧ data = (recordOf s .done 1 last).bytes
  else
    ∃ last, (last = 0 ∨ last = int32Status s.blame) ∧ data = (recordOf s (phaseOf s) 0 last).bytes

/-- The last word: how far the loader came and what refused, or what the image returned. -/
def Concluded (s : Flow) : Prop :=
  s.record =
    (if s.ramDp.isSome = true then recordOf s .done 1 (int32Status s.blame)
     else recordOf s (phaseOf s) 0 (int32Status s.blame)).bytes

structure Ended (s : Flow) (status : Status) : Prop where
  blame : s.blame = status
  started : status.isError = true ∨ s.ramDp.isSome = true ∧ s.started = some status
  concluded : Concluded s

def ChunkSize (n : ℕ) : Prop := 0 < n ∧ n % 4 = 0 ∧ n ≤ readChunkMax

/-- Read-only: the identify data, and the next part of the partition's log page. -/
def Reads (s : Flow) (p : Packet) : Prop :=
  s.located = true ∧ s.ramDp = none ∧
    ((p = identifyPacket ∧ s.pages = none) ∨
      (s.pages.isSome = true ∧ ∃ n, ChunkSize n ∧ s.image.length + n ≤ bpsizeBytes ∧
        p = bpLogPagePacket targetBpid (lidBpHeaderBytes + s.image.length) n))

/-- What leads to the image comes after the registration; no variable but the result is written. -/
def Permitted (imageHandle : Handle) (s : Flow) : LoaderCall → Prop
  | .firmware (.gBSSetWatchdogTimer timeout) => timeout = 0
  | .firmware (.gBSLocateHandleBuffer .allHandle) => True
  | .firmware (.gBSConnectControllerRecursive _) => True
  | .firmware .freePool => True
  | .gBSLocateProtocol _ => True
  | .setResultVariable name data => name = .bpLoaderResult ∧ Told s data
  | .firmware (.passThru p) => Reads s p
  | .firmware (.gBSAllocatePages n) => s.pages = none ∧ n * efiPageSize = bpsizeBytes
  | .firmware (.gBSFreePages address n) => s.pages = some (address, n) ∧ ¬Complete s
  | .ramDiskRegister base size content =>
    s.ramDp = none ∧ Complete s ∧ size = bpsizeBytes ∧ content = s.image ∧
      ∃ n, s.pages = some (base, n) ∧ n * efiPageSize = size
  | .firmware (.gBSLocateDevicePath path) => ∃ ramDp, s.ramDp = some ramDp ∧ path = ramDp.path
  | .firmware (.gBSLocateHandleBuffer (.byProtocol g)) =>
    s.ramDp.isSome = true ∧ g = .simpleFileSystem
  | .gBSHandleDevicePath h =>
    s.ramDp.isSome = true ∧ s.volume = none ∧ s.asked ++ [h] <+: s.handles
  | .fileDevicePath h name =>
    s.ramDp.isSome = true ∧ s.volume = some h ∧ name = chainloadFilePath
  | .gBSLoadImage parent path =>
    s.ramDp.isSome = true ∧ parent = imageHandle ∧ s.bootDp = some path ∧ s.newImage = none
  | .gBSStartImage h => s.ramDp.isSome = true ∧ s.newImage = some h ∧ s.started = none
  | .firmware .gRTResetSystem => Ended s s.blame
  | _ => False

def flow (imageHandle : Handle) : Monitor LoaderAnswer Flow where
  start := {}
  step := note
  permits := Permitted imageHandle

variable {imageHandle : Handle}

theorem steps_call_bind {α : Type} {c : LoaderCall} {f : LoaderAnswer c → Loader α} {s : Flow}
    {Q : Flow → α → Prop} (hc : Permitted imageHandle s c)
    (hf : ∀ r, (flow imageHandle).Steps Q (f r) (note s ⟨c, some r⟩)) :
    (flow imageHandle).Steps Q (call c >>= f) s :=
  ⟨hc, fun r _ => hf r⟩

theorem steps_ask_bind {α : Type} {c : Call} {f : Answer c → Firmware α} {s : Flow}
    {Q : Flow → α → Prop} (hc : Permitted imageHandle s (.firmware c))
    (hf : ∀ r, ((flow imageHandle).below firmware).Steps Q (f r) (note s ⟨.firmware c, some r⟩)) :
    ((flow imageHandle).below firmware).Steps Q (ask c >>= f) s :=
  ⟨hc, fun r _ => hf r⟩

theorem chunkFor_size (mdts : UInt8) : ChunkSize (chunkFor mdts) := by
  have hmin : ChunkSize readChunkMin := by unfold ChunkSize; decide
  have hmax : ChunkSize readChunkMax := by unfold ChunkSize; decide
  have hdword : (((1 : UInt64) <<< mdts.toUInt64) * 4096).toNat % 4 = 0 := by
    rw [UInt64.toNat_mul]
    have hpage : (4096 : UInt64).toNat = 4096 := rfl
    rw [hpage]
    omega
  unfold chunkFor
  dsimp only
  split
  · exact hmax
  split
  · exact hmax
  split
  · exact hmin
  next hbelow habove =>
    have hpos := hmin.1
    exact ⟨by omega, hdword, by omega⟩

theorem steps_probeMaxTransfer {s : Flow} (hlocated : s.located = true) (hramDp : s.ramDp = none)
    (hpages : s.pages = none) :
    (flow imageHandle).Steps (fun s' chunk => s' = s ∧ ChunkSize chunk)
      (firmware.program probeMaxTransfer) s := by
  apply Monitor.steps_program
  refine steps_ask_bind ⟨hlocated, hramDp, .inl ⟨rfl, hpages⟩⟩ ?_
  intro completion
  have hnote : note s ⟨.firmware (.passThru identifyPacket), some completion⟩ = s := rfl
  rw [hnote]
  split
  · exact ⟨rfl, by unfold ChunkSize; decide⟩
  · exact ⟨rfl, chunkFor_size _⟩

structure LoopEnded (s s' : Flow) (pageAddr pages : ℕ) (gResult : BplResult) (out : LoadOutcome) :
    Prop where
  whole : out.status.isError = false →
    s' = { s with image := s'.image } ∧ Complete s' ∧
      out.loaded = { pageAddr, pages, bytesRead := bpsizeBytes, content := s'.image } ∧
      out.gResult = { gResult with first32Bytes := s'.image.take 32 }
  failed : out.status.isError = true →
    s' = { s with
      image := s'.image
      pages := none
      lastNvme := out.gResult.lastNvmeStatus
      blame := out.status } ∧ ¬Complete s' ∧
      out.gResult = { gResult with lastNvmeStatus := out.gResult.lastNvmeStatus }

theorem note_logPage (s : Flow) (off n : ℕ) (c : Completion) :
    note s ⟨.firmware (.passThru (bpLogPagePacket targetBpid off n)), some c⟩ =
      logPageRead s (bpLogPagePacket targetBpid off n) c := rfl

theorem length_received_logPage (off n : ℕ) (c : Completion) :
    (received (bpLogPagePacket targetBpid off n) c).length = n :=
  BootPartitionLoaders.length_received_zeroed rfl (by simp [bpLogPagePacket, Nat.mod_le]) c

structure Reading (s : Flow) (pageAddr pages bpOff : ℕ) (dest : Bytes) : Prop where
  located : s.located = true
  ramDp : s.ramDp = none
  held : s.pages = some (pageAddr, pages)
  image : dest.take bpOff = s.image
  length : dest.length = bpsizeBytes
  within : bpOff ≤ bpsizeBytes
  dword : bpOff % 4 = 0

theorem Reading.length_image {s : Flow} {pageAddr pages bpOff : ℕ} {dest : Bytes}
    (hs : Reading s pageAddr pages bpOff dest) : s.image.length = bpOff := by
  rw [← hs.image, List.length_take, hs.length, Nat.min_eq_left hs.within]

theorem Reading.accepted {s : Flow} {pageAddr pages bpOff n : ℕ} {dest page : Bytes}
    (hs : Reading s pageAddr pages bpOff dest) (hpage : page.length = n)
    (hfits : bpOff + n ≤ bpsizeBytes) (hdword : n % 4 = 0) :
    Reading { s with image := s.image ++ page } pageAddr pages (bpOff + n)
      (splice dest bpOff page) := by
  have hlength := hs.length
  have hoff := hs.dword
  refine ⟨hs.located, hs.ramDp, hs.held, ?_, ?_, hfits, by omega⟩
  · rw [← hpage, take_splice (by omega), hs.image]
  · rw [length_splice (by omega), hlength]

theorem steps_loadBpLoop {chunk pageAddr pages : ℕ} (hchunk : ChunkSize chunk)
    (gResult : BplResult) : ∀ {fuel bpOff : ℕ} {dest : Bytes} {s : Flow},
      Reading s pageAddr pages bpOff dest →
      ((flow imageHandle).below firmware).Steps
        (fun s' out => LoopEnded s s' pageAddr pages gResult out)
        (loadBpLoop gResult targetBpid bpsizeBytes chunk pageAddr pages fuel bpOff dest) s := by
  intro fuel
  induction fuel with
  | zero => exact fun _ => trivial
  | succ fuel ih =>
    intro bpOff dest s hs
    have himage := hs.length_image
    unfold loadBpLoop
    by_cases hmore : bpOff < bpsizeBytes
    · rw [if_pos hmore]
      obtain ⟨n, hn⟩ : ∃ n, n = if bpOff + chunk > bpsizeBytes then bpsizeBytes - bpOff else chunk :=
        ⟨_, rfl⟩
      have hbounds : ChunkSize n ∧ bpOff + n ≤ bpsizeBytes := by
        obtain ⟨hpos, hdword, hmax⟩ := hchunk
        have hoff := hs.dword
        have hsize : bpsizeBytes % 4 = 0 := by decide
        unfold ChunkSize
        rw [hn]
        split <;> omega
      dsimp only
      rw [← hn, getBpLogPage, bind_assoc]
      refine steps_ask_bind ⟨hs.located, hs.ramDp, .inr ⟨?_, n, hbounds.1, ?_, ?_⟩⟩ ?_
      · rw [hs.held]
        rfl
      · rw [himage]
        exact hbounds.2
      · rw [himage]
      intro c
      rw [note_logPage, logPageRead]
      simp only [pure_bind]
      by_cases hc : c.Accepted
      · have hread := hs.accepted (length_received_logPage (lidBpHeaderBytes + bpOff) n c)
          hbounds.2 hbounds.1.2.1
        rw [if_pos hc, if_neg ((BootPartitionLoaders.rejected_iff c).not.mpr (not_not.mpr hc))]
        refine (ih hread).mono ?_
        intro s' out hout
        exact ⟨hout.whole, hout.failed⟩
      · rw [if_neg hc, if_pos ((BootPartitionLoaders.rejected_iff c).mpr hc)]
        have hincomplete : ¬s.image.length = bpsizeBytes := by omega
        refine steps_ask_bind ⟨hs.held, hincomplete⟩ ?_
        intro _
        have herror : (if c.status.isError = true then c.status else efiDeviceError).isError =
            true := by
          split
          · assumption
          · rfl
        refine ⟨fun hok => ?_, fun _ => ⟨rfl, hincomplete, rfl⟩⟩
        rw [herror] at hok
        cases hok
    · rw [if_neg hmore]
      obtain rfl : bpOff = bpsizeBytes := Nat.le_antisymm hs.within (by omega)
      have hdest : dest = s.image := by
        rw [← hs.image, List.take_of_length_le hs.length.le]
      subst hdest
      exact ⟨fun _ => ⟨rfl, himage, rfl, rfl⟩, fun herror => absurd herror Bool.false_ne_true⟩

theorem steps_loadBpIntoPages {chunk : ℕ} (hchunk : ChunkSize chunk) (gResult : BplResult)
    {s : Flow} (hlocated : s.located = true) (hramDp : s.ramDp = none) (hpages : s.pages = none)
    (himage : s.image = []) :
    (flow imageHandle).Steps (fun s' out =>
        (out.status.isError = false ∧ ∃ pageAddr pages, pages * efiPageSize = bpsizeBytes ∧
          s' = { s with image := s'.image, pages := some (pageAddr, pages) } ∧ Complete s' ∧
          out.loaded = { pageAddr, pages, bytesRead := bpsizeBytes, content := s'.image } ∧
          out.gResult = { gResult with first32Bytes := s'.image.take 32 }) ∨
        (out.status.isError = true ∧ ¬Complete s' ∧ ∃ lastNvme,
          s' = { s with image := s'.image, lastNvme := lastNvme, blame := out.status } ∧
          (out.gResult = { gResult with lastNvmeStatus := lastNvme } ∨
            lastNvme = s.lastNvme ∧ out.gResult = gResult)))
      (firmware.program (loadBpIntoPages gResult targetBpid bpsizeBytes chunk)) s := by
  apply Monitor.steps_program
  have hsize : (bpsizeBytes + efiPageSize - 1) / efiPageSize * efiPageSize = bpsizeBytes := by decide
  obtain ⟨pages, hcount⟩ : ∃ pages, pages = (bpsizeBytes + efiPageSize - 1) / efiPageSize := ⟨_, rfl⟩
  rw [← hcount] at hsize
  rw [loadBpIntoPages]
  dsimp only
  rw [← hcount]
  refine steps_ask_bind ⟨hpages, hsize⟩ ?_
  rintro ⟨status, pageAddr⟩
  dsimp only
  by_cases hstatus : status.isError = true
  · rw [if_pos hstatus]
    have hincomplete : ¬Complete { s with blame := status } := by
      rw [Complete, himage]
      decide
    have hnote : note s ⟨.firmware (.gBSAllocatePages pages), some (status, pageAddr)⟩ =
        { s with blame := status } := if_pos hstatus
    rw [hnote]
    exact .inr ⟨hstatus, hincomplete, s.lastNvme, rfl, .inr ⟨rfl, rfl⟩⟩
  · rw [if_neg hstatus]
    have hnote : note s ⟨.firmware (.gBSAllocatePages pages), some (status, pageAddr)⟩ =
        { s with pages := some (pageAddr, pages) } := if_neg hstatus
    have hreading : Reading { s with pages := some (pageAddr, pages) } pageAddr pages 0
        (zeroed (pages * efiPageSize)) :=
      ⟨hlocated, hramDp, rfl, himage.symm, by rw [length_zeroed, hsize], Nat.zero_le _, rfl⟩
    rw [hnote]
    refine (steps_loadBpLoop hchunk gResult hreading).mono ?_
    intro s' out hout
    by_cases hstatus : out.status.isError = true
    · obtain ⟨hstate, hincomplete, hresult⟩ := hout.failed hstatus
      refine .inr ⟨hstatus, hincomplete, out.gResult.lastNvmeStatus, ?_, .inl hresult⟩
      rw [hpages]
      exact hstate
    · have hok : out.status.isError = false := by simpa using hstatus
      obtain ⟨hstate, hcomplete, hloaded, hresult⟩ := hout.whole hok
      exact .inl ⟨hok, pageAddr, pages, hsize, hstate, hcomplete, hloaded, hresult⟩

def currentRecord (s : Flow) : BplRecord :=
  if s.ramDp.isSome = true then recordOf s .done 1 0 else recordOf s (phaseOf s) 0 0

theorem steps_writeResultToNvRam {gResult : BplRecord} {s : Flow} (htold : Told s gResult.bytes) :
    (flow imageHandle).Steps (fun s' _ => s' = { s with record := gResult.bytes })
      (writeResultToNvRam gResult) s := by
  refine steps_call_bind ⟨rfl, htold⟩ ?_
  intro _
  rfl

theorem told_currentRecord (s : Flow) : Told s (currentRecord s).bytes := by
  unfold Told currentRecord
  split
  · exact .inr (.inr ⟨0, .inl rfl, rfl⟩)
  · exact ⟨0, .inl rfl, rfl⟩

theorem steps_fail {gResult : BplRecord} {status : Status} {s : Flow}
    (hrecord : gResult = currentRecord s) (hblame : s.blame = status)
    (hstarted : status.isError = true ∨ s.ramDp.isSome = true ∧ s.started = some status) :
    (flow imageHandle).Steps (fun s' r => Ended s' r) (fail gResult status) s := by
  have hlast : { gResult with lastEfiStatus := int32Status status } =
      if s.ramDp.isSome = true then recordOf s .done 1 (int32Status s.blame)
      else recordOf s (phaseOf s) 0 (int32Status s.blame) := by
    rw [hrecord, currentRecord, hblame]
    split <;> rfl
  have htold : Told s { gResult with lastEfiStatus := int32Status status }.bytes := by
    rw [hlast]
    unfold Told
    split
    · exact .inr (.inr ⟨_, .inr rfl, rfl⟩)
    · exact ⟨_, .inr rfl, rfl⟩
  refine (steps_writeResultToNvRam htold).bind ?_
  rintro s' _ rfl
  refine ⟨hblame, hstarted, ?_⟩
  rw [hlast]
  rfl

theorem steps_findFatHandle {ramDp : PathInstance} : ∀ {rest : List Handle} {s : Flow},
    s.ramDp = some ramDp → s.volume = none → s.handles = s.asked ++ rest →
      (flow imageHandle).Steps
        (fun s' found => s' = { s with asked := s'.asked, volume := found })
        (findFatHandle ramDp rest) s := by
  intro rest
  induction rest with
  | nil =>
    intro s _ hvolume _
    rw [findFatHandle, Program.pure_eq_done, Monitor.steps_done, ← hvolume]
  | cons handle rest ih =>
    intro s hramDp hvolume hhandles
    have hnext : s.asked ++ [handle] <+: s.handles := by
      rw [hhandles, List.append_cons s.asked handle rest]
      exact List.prefix_append _ _
    refine steps_call_bind ⟨by rw [hramDp]; rfl, hvolume, hnext⟩ ?_
    rintro ⟨status, dp⟩
    have hskip : ¬(status.isError = false ∧ ramDp.nodes <+: dp.nodes) →
        (flow imageHandle).Steps (fun s' found => s' = { s with asked := s'.asked, volume := found })
          (findFatHandle ramDp rest) (note s ⟨.gBSHandleDevicePath handle, some (status, dp)⟩) := by
      intro hno
      have hnote : note s ⟨.gBSHandleDevicePath handle, some (status, dp)⟩ =
          { s with asked := s.asked ++ [handle] } := by
        simp only [note, pathSeen, hramDp, Option.mem_some_iff, exists_eq_left', if_neg hno]
      have hrest : s.handles = s.asked ++ [handle] ++ rest := by rw [hhandles, List.append_cons]
      rw [hnote]
      exact (ih (s := { s with asked := s.asked ++ [handle] }) hramDp hvolume hrest).mono
        fun _ _ hfound => hfound
    dsimp only
    by_cases hstatus : status.isError = true
    · rw [if_pos hstatus]
      exact hskip fun h => by simp [h.1] at hstatus
    have hok : status.isError = false := by simpa using hstatus
    rw [if_neg hstatus]
    by_cases hshort : getDevicePathSize dp < prefixSize ramDp
    · rw [if_pos hshort]
      exact hskip fun h => ((rooted_iff ramDp dp).mpr h.2).1 hshort
    rw [if_neg hshort]
    by_cases hsame : compareMem (asBytes dp.path) (asBytes ramDp.path) (prefixSize ramDp) = true
    · have hrooted := (rooted_iff ramDp dp).mp ⟨hshort, hsame⟩
      have hnote : note s ⟨.gBSHandleDevicePath handle, some (status, dp)⟩ =
          { s with asked := s.asked ++ [handle], volume := some handle } := by
        simp only [note, pathSeen, hramDp, Option.mem_some_iff, exists_eq_left',
          if_pos (And.intro hok hrooted)]
      rw [if_pos hsame, hnote]
      rfl
    · rw [if_neg hsame]
      exact hskip fun h => hsame ((rooted_iff ramDp dp).mpr h.2).2

structure Staged (s : Flow) (ramDp : PathInstance) : Prop where
  ramDp : s.ramDp = some ramDp
  newImage : s.newImage = none
  started : s.started = none

theorem currentRecord_registered {s : Flow} {ramDp : PathInstance} (hs : s.ramDp = some ramDp) :
    currentRecord s = recordOf s .done 1 0 := by
  rw [currentRecord, hs]
  rfl

theorem told_registered {s : Flow} {ramDp : PathInstance} (hs : s.ramDp = some ramDp)
    (data : Bytes) : Told s data ↔
      (data = (recordOf s .ramdiskRegistered 0 0).bytes ∨ data = (recordOf s .done 0 0).bytes ∨
        ∃ last, (last = 0 ∨ last = int32Status s.blame) ∧
          data = (recordOf s .done 1 last).bytes) := by
  rw [Told, hs]
  rfl

theorem told_done {s : Flow} {ramDp : PathInstance} (hs : s.ramDp = some ramDp) :
    Told s (recordOf s .done 1 0).bytes := by
  rw [← currentRecord_registered hs]
  exact told_currentRecord s

/-- The image is not running; the record goes on from what the state tells. -/
theorem Staged.steps_fail {ramDp : PathInstance} {status : Status} {s : Flow}
    (hs : Staged s ramDp) (hblame : s.blame = status) (hstatus : status.isError = true) :
    (flow imageHandle).Steps (fun s' r => Ended s' r) (fail (recordOf s .done 1 0) status) s :=
  BpRecoveryFlowRuns.steps_fail (currentRecord_registered hs.ramDp).symm hblame (.inl hstatus)

theorem note_freePool (s : Flow) (r : LoaderAnswer (.firmware .freePool)) :
    note s ⟨.firmware .freePool, some r⟩ = listFreed s := rfl

theorem steps_bootVolume {ramDp : PathInstance} {fatHandle : Handle} {s : Flow}
    (hs : Staged s ramDp) (hvolume : s.volume = some fatHandle) :
    (flow imageHandle).Steps (fun s' r => Ended s' r)
      (bootVolume imageHandle (recordOf s .done 1 0) fatHandle) s := by
  have hsome : s.ramDp.isSome = true := by rw [hs.ramDp]; rfl
  refine steps_call_bind ⟨hsome, hvolume, rfl⟩ ?_
  intro r
  cases r with
  | none =>
    exact Staged.steps_fail (s := { s with blame := efiOutOfResources })
      ⟨hs.ramDp, hs.newImage, hs.started⟩ rfl rfl
  | some bootDp =>
    have hnote : note s ⟨.fileDevicePath fatHandle chainloadFilePath, some (some bootDp)⟩ =
        { s with bootDp := some bootDp } := rfl
    rw [hnote]
    refine steps_call_bind ⟨hsome, rfl, rfl, hs.newImage⟩ ?_
    rintro ⟨status, newImage⟩
    have hfreed : ∀ t : Flow, t.volume = some fatHandle → listFreed t = t := by
      intro t ht
      simp [listFreed, ht]
    by_cases hstatus : status.isError = true
    · have hload : note { s with bootDp := some bootDp }
          ⟨.gBSLoadImage imageHandle bootDp, some (status, newImage)⟩ =
            { s with bootDp := some bootDp, blame := status } := if_pos hstatus
      rw [hload]
      refine steps_call_bind trivial ?_
      intro _
      rw [note_freePool, hfreed _ (by exact hvolume)]
      dsimp only
      rw [if_pos hstatus]
      have hkept : Staged { s with bootDp := some bootDp, blame := status } ramDp :=
        ⟨hs.ramDp, hs.newImage, hs.started⟩
      exact hkept.steps_fail rfl hstatus
    · have hload : note { s with bootDp := some bootDp }
          ⟨.gBSLoadImage imageHandle bootDp, some (status, newImage)⟩ =
            { s with bootDp := some bootDp, newImage := some newImage } := if_neg hstatus
      rw [hload]
      refine steps_call_bind trivial ?_
      intro _
      rw [note_freePool, hfreed _ (by exact hvolume)]
      dsimp only
      rw [if_neg hstatus]
      have htold := told_done (s := { s with bootDp := some bootDp, newImage := some newImage })
        hs.ramDp
      refine Monitor.Steps.bind (steps_writeResultToNvRam htold) ?_
      rintro s' _ rfl
      refine steps_call_bind ⟨hsome, rfl, hs.started⟩ ?_
      intro status
      refine steps_fail ?_ rfl (.inr ⟨hsome, rfl⟩)
      rw [currentRecord_registered]
      · rfl
      · exact hs.ramDp

/-- No handle has been listed and none asked. -/
structure Unsearched (s : Flow) : Prop where
  handles : s.handles = []
  asked : s.asked = []
  volume : s.volume = none

theorem steps_chainload {ramDp : PathInstance} {s : Flow} (hs : Staged s ramDp)
    (hsearch : Unsearched s) :
    (flow imageHandle).Steps (fun s' r => Ended s' r)
      (chainload imageHandle (recordOf s .done 0 0) ramDp) s := by
  refine (steps_writeResultToNvRam (told_done hs.ramDp)).bind ?_
  rintro s₁ _ hrecorded
  replace hs : Staged s₁ ramDp := hrecorded ▸ ⟨hs.ramDp, hs.newImage, hs.started⟩
  replace hsearch : Unsearched s₁ := hrecorded ▸ ⟨hsearch.handles, hsearch.asked, hsearch.volume⟩
  have hrecord : recordOf s .done 1 0 = recordOf s₁ .done 1 0 := by rw [hrecorded]; rfl
  have hgoal : ({ recordOf s .done 0 0 with chainloadAttempted := 1 } : BplRecord) =
      recordOf s₁ .done 1 0 := hrecord
  rw [hgoal]
  refine steps_call_bind ⟨ramDp, hs.ramDp, rfl⟩ ?_
  rintro ⟨status, ramHandle, remaining⟩
  dsimp only
  by_cases hstatus : status.isError = true
  · have hnote : note s₁ ⟨.firmware (.gBSLocateDevicePath ramDp.path),
        some (status, ramHandle, remaining)⟩ = { s₁ with blame := status } := if_pos hstatus
    have hkept : Staged { s₁ with blame := status } ramDp := ⟨hs.ramDp, hs.newImage, hs.started⟩
    rw [if_pos hstatus, hnote]
    exact hkept.steps_fail rfl hstatus
  have hnote : note s₁ ⟨.firmware (.gBSLocateDevicePath ramDp.path),
      some (status, ramHandle, remaining)⟩ = s₁ := if_neg hstatus
  rw [if_neg hstatus, hnote]
  clear hnote hstatus
  refine steps_call_bind trivial ?_
  intro _
  refine steps_call_bind ⟨by exact Option.isSome_iff_exists.mpr ⟨ramDp, hs.ramDp⟩, rfl⟩ ?_
  rintro ⟨status, sfsHandles⟩
  dsimp only
  by_cases hstatus : status.isError = true
  · have hkept : Staged { s₁ with blame := status } ramDp := ⟨hs.ramDp, hs.newImage, hs.started⟩
    have hnote : note s₁ ⟨.firmware (.gBSLocateHandleBuffer (.byProtocol .simpleFileSystem)),
        some (status, sfsHandles)⟩ = { s₁ with blame := status } := if_pos hstatus
    rw [if_pos hstatus]
    change (flow imageHandle).Steps _ _
      (note s₁ ⟨.firmware (.gBSLocateHandleBuffer (.byProtocol .simpleFileSystem)), _⟩)
    rw [hnote]
    exact hkept.steps_fail rfl hstatus
  have hnote : note s₁ ⟨.firmware (.gBSLocateHandleBuffer (.byProtocol .simpleFileSystem)),
      some (status, sfsHandles)⟩ = { s₁ with handles := sfsHandles } := if_neg hstatus
  rw [if_neg hstatus]
  change (flow imageHandle).Steps _ _
    (note s₁ ⟨.firmware (.gBSLocateHandleBuffer (.byProtocol .simpleFileSystem)), _⟩)
  rw [hnote]
  have hlisted : sfsHandles = s₁.asked ++ sfsHandles := by rw [hsearch.asked]; rfl
  refine Monitor.Steps.bind
    (steps_findFatHandle (s := { s₁ with handles := sfsHandles }) hs.ramDp hsearch.volume hlisted) ?_
  intro s₂ found hfound
  have hkept : Staged s₂ ramDp := by
    rw [hfound]
    exact ⟨hs.ramDp, hs.newImage, hs.started⟩
  have hrecord : recordOf s₁ .done 1 0 = recordOf s₂ .done 1 0 := by rw [hfound]; rfl
  have hvolume : s₂.volume = found := by rw [hfound]
  refine steps_call_bind trivial ?_
  intro _
  rw [note_freePool, hrecord]
  cases found with
  | none =>
    have hfreed : listFreed s₂ = { s₂ with blame := efiNotFound } := by
      simp [listFreed, hvolume, hkept.ramDp]
    have hlost : Staged { s₂ with blame := efiNotFound } ramDp :=
      ⟨hkept.ramDp, hkept.newImage, hkept.started⟩
    rw [hfreed]
    exact hlost.steps_fail rfl rfl
  | some fatHandle =>
    have hfreed : listFreed s₂ = s₂ := by simp [listFreed, hvolume]
    rw [hfreed]
    exact steps_bootVolume hkept hvolume

structure InPages (s : Flow) (loaded : LoadedPages) : Prop where
  complete : Complete s
  ramDp : s.ramDp = none
  newImage : s.newImage = none
  started : s.started = none
  search : Unsearched s
  loaded : ∃ pageAddr pages, pages * efiPageSize = bpsizeBytes ∧
    s.pages = some (pageAddr, pages) ∧
      loaded = { pageAddr, pages, bytesRead := bpsizeBytes, content := s.image }

theorem phaseOf_complete {s : Flow} (hs : Complete s) : phaseOf s = .bpLoaded := if_pos hs

theorem currentRecord_unregistered {s : Flow} (hs : s.ramDp = none) :
    currentRecord s = recordOf s (phaseOf s) 0 0 := by
  rw [currentRecord, hs]
  rfl

theorem steps_registerRamDisk {s : Flow} {loaded : LoadedPages} (hs : InPages s loaded) :
    (flow imageHandle).Steps (fun s' r => Ended s' r)
      (registerRamDisk imageHandle (recordOf s .bpLoaded 0 0) loaded) s := by
  have hphase := phaseOf_complete hs.complete
  have hcurrent := currentRecord_unregistered hs.ramDp
  rw [hphase] at hcurrent
  refine steps_call_bind trivial ?_
  rintro ⟨status, ramDisk⟩
  dsimp only
  by_cases hstatus : status.isError = true
  · have hnote : note s ⟨.gBSLocateProtocol .ramDisk, some (status, ramDisk)⟩ =
        { s with blame := status } := if_pos hstatus
    rw [if_pos hstatus, hnote]
    exact steps_fail hcurrent.symm rfl (.inl hstatus)
  have hnote : note s ⟨.gBSLocateProtocol .ramDisk, some (status, ramDisk)⟩ = s := by
    simp [note, hstatus]
  rw [if_neg hstatus, hnote]
  clear hnote hstatus
  obtain ⟨pageAddr, pages, hsize, hpages, rfl⟩ := hs.loaded
  refine steps_call_bind ⟨hs.ramDp, hs.complete, rfl, rfl, pages, hpages, hsize⟩ ?_
  rintro ⟨status, ramDp⟩
  dsimp only
  by_cases hstatus : status.isError = true
  · have hnote : note s ⟨.ramDiskRegister pageAddr bpsizeBytes s.image, some (status, ramDp)⟩ =
        { s with blame := status } := if_pos hstatus
    rw [if_pos hstatus, hnote]
    exact steps_fail hcurrent.symm rfl (.inl hstatus)
  have hnote : note s ⟨.ramDiskRegister pageAddr bpsizeBytes s.image, some (status, ramDp)⟩ =
      { s with ramDp := some ramDp } := if_neg hstatus
  rw [if_neg hstatus, hnote]
  have htold : Told { s with ramDp := some ramDp }
      (recordOf { s with ramDp := some ramDp } .ramdiskRegistered 0 0).bytes :=
    (told_registered rfl _).mpr (.inl rfl)
  refine Monitor.Steps.bind (steps_writeResultToNvRam htold) ?_
  rintro s₁ _ hrecorded
  have hramDp : s₁.ramDp = some ramDp := by rw [hrecorded]
  have hdone : Told s₁ (recordOf s₁ .done 0 0).bytes :=
    (told_registered hramDp _).mpr (.inr (.inl rfl))
  have hrecord : recordOf { s with ramDp := some ramDp } .done 0 0 = recordOf s₁ .done 0 0 := by
    rw [hrecorded]
    rfl
  change (flow imageHandle).Steps _ (do
    writeResultToNvRam (recordOf { s with ramDp := some ramDp } .done 0 0)
    chainload imageHandle (recordOf { s with ramDp := some ramDp } .done 0 0) ramDp) s₁
  rw [hrecord]
  refine (steps_writeResultToNvRam hdone).bind ?_
  rintro s₂ _ hrecorded'
  have hrecord' : recordOf s₁ .done 0 0 = recordOf s₂ .done 0 0 := by
    rw [hrecorded']
    rfl
  rw [hrecord']
  apply steps_chainload
  · rw [hrecorded', hrecorded]
    exact ⟨rfl, hs.newImage, hs.started⟩
  · rw [hrecorded', hrecorded]
    exact ⟨hs.search.handles, hs.search.asked, hs.search.volume⟩

structure Before (s : Flow) : Prop where
  pages : s.pages = none
  image : s.image = []
  lastNvme : s.lastNvme = 0
  ramDp : s.ramDp = none
  newImage : s.newImage = none
  started : s.started = none
  search : Unsearched s

theorem Before.incomplete {s : Flow} (hs : Before s) : ¬Complete s := by
  rw [Complete, hs.image]
  decide

/-- Every field is as the state has it: nothing is read, registered or loaded. -/
theorem Before.currentRecord {s : Flow} (hs : Before s) :
    currentRecord s = { phaseReached := phaseOf s } := by
  rw [currentRecord_unregistered hs.ramDp, recordOf, hs.ramDp, hs.newImage, hs.lastNvme]
  simp only [if_neg hs.incomplete]
  rfl

theorem steps_loadBootPartition {s : Flow} (hs : Before s) (hlocated : s.located = true) :
    (flow imageHandle).Steps (fun s' r => Ended s' r)
      (loadBootPartition imageHandle { phaseReached := .passthruLocated }) s := by
  have hphase : ∀ t : Flow, ¬Complete t → t.located = true → phaseOf t = .passthruLocated := by
    intro t ht hlocated
    rw [phaseOf, if_neg ht, if_pos hlocated]
  refine (steps_probeMaxTransfer hlocated hs.ramDp hs.pages).bind ?_
  rintro _ chunk ⟨rfl, hchunk⟩
  refine (steps_loadBpIntoPages hchunk _ hlocated hs.ramDp hs.pages hs.image).bind ?_
  intro s₁ out hout
  dsimp only
  rcases hout with ⟨hok, pageAddr, pages, hsize, hstate, hcomplete, hloaded, hresult⟩ |
    ⟨hstatus, hincomplete, lastNvme, hstate, hresult⟩
  · have hramDp : s₁.ramDp = none := by rw [hstate]; exact hs.ramDp
    have hnewImage : s₁.newImage = none := by rw [hstate]; exact hs.newImage
    have hpages : s₁.pages = some (pageAddr, pages) := by rw [hstate]
    have hnvme : s₁.lastNvme = 0 := by rw [hstate]; exact hs.lastNvme
    have hrecord : recordOf s₁ .bpLoaded 0 0 =
        { phaseReached := .bpLoaded
          bpBytesRead := out.loaded.bytesRead
          ramDiskBaseAddr := out.loaded.pageAddr
          loading := out.gResult } := by
      rw [recordOf, hramDp, hnewImage, hnvme, hpages, hloaded, hresult]
      simp only [if_pos hcomplete]
      rfl
    have htold := told_currentRecord s₁
    rw [currentRecord_unregistered hramDp, phaseOf_complete hcomplete] at htold
    rw [if_neg (by simp [hok])]
    change (flow imageHandle).Steps _ (do
      writeResultToNvRam { phaseReached := .bpLoaded
                           bpBytesRead := out.loaded.bytesRead
                           ramDiskBaseAddr := out.loaded.pageAddr
                           loading := out.gResult }
      registerRamDisk imageHandle
        { phaseReached := .bpLoaded
          bpBytesRead := out.loaded.bytesRead
          ramDiskBaseAddr := out.loaded.pageAddr
          loading := out.gResult } out.loaded) s₁
    rw [← hrecord]
    refine (steps_writeResultToNvRam htold).bind ?_
    rintro s₂ _ hrecorded
    have hsame : recordOf s₁ .bpLoaded 0 0 = recordOf s₂ .bpLoaded 0 0 := by rw [hrecorded]; rfl
    rw [hsame]
    apply steps_registerRamDisk
    rw [hrecorded]
    refine ⟨hcomplete, hramDp, hnewImage, ?_, ?_, pageAddr, pages, hsize, hpages, hloaded⟩
    · rw [hstate]
      exact hs.started
    · rw [hstate]
      exact ⟨hs.search.handles, hs.search.asked, hs.search.volume⟩
  · rw [if_pos hstatus]
    have hramDp : s₁.ramDp = none := by rw [hstate]; exact hs.ramDp
    refine steps_fail ?_ ?_ (.inl hstatus)
    · have hlocated₁ : s₁.located = true := by rw [hstate]; exact hlocated
      have hnewImage : s₁.newImage = none := by rw [hstate]; exact hs.newImage
      have hnvme : s₁.lastNvme = lastNvme := by rw [hstate]
      rw [currentRecord_unregistered hramDp, hphase s₁ hincomplete hlocated₁, recordOf, hramDp,
        hnewImage, hnvme]
      simp only [if_neg hincomplete]
      rcases hresult with hresult | ⟨hlast, hresult⟩
      · rw [hresult]
        rfl
      · rw [hresult, hlast, hs.lastNvme]
        rfl
    · rw [hstate]

theorem Before.found {s : Flow} (hs : Before s) : Before { s with located := true } where
  pages := hs.pages
  image := hs.image
  lastNvme := hs.lastNvme
  ramDp := hs.ramDp
  newImage := hs.newImage
  started := hs.started
  search := ⟨hs.search.handles, hs.search.asked, hs.search.volume⟩

theorem Before.recorded {s : Flow} (hs : Before s) (data : Bytes) :
    Before { s with record := data } where
  pages := hs.pages
  image := hs.image
  lastNvme := hs.lastNvme
  ramDp := hs.ramDp
  newImage := hs.newImage
  started := hs.started
  search := ⟨hs.search.handles, hs.search.asked, hs.search.volume⟩

theorem steps_connectAll {s : Flow} (hs : s.ramDp = none) :
    (flow imageHandle).Steps (fun s' _ => s' = s) connectAll s := by
  refine steps_call_bind trivial ?_
  rintro ⟨status, handles⟩
  have hnote : note s ⟨.firmware (.gBSLocateHandleBuffer .allHandle), some (status, handles)⟩ = s :=
    rfl
  change (flow imageHandle).Steps _ _
    (note s ⟨.firmware (.gBSLocateHandleBuffer .allHandle), some (status, handles)⟩)
  rw [hnote]
  dsimp only
  split
  · have hconnect : ∀ (x : Handle) (xs : List Handle) (t : Flow) (u : Unit), t = s →
        (flow imageHandle).Steps (fun t' _ => t' = s)
          (fw (.gBSConnectControllerRecursive x)) t :=
      fun _ _ _ _ ht => ⟨trivial, fun _ _ => ht⟩
    refine (Monitor.Steps.foldlM (I := fun _ t _ => t = s) hconnect handles s () rfl).bind ?_
    rintro t _ rfl
    refine ⟨trivial, ?_⟩
    intro _ _
    simp [listFreed, hs, note, flow]
  · rfl

theorem steps_runSreFlow :
    (flow imageHandle).Steps (fun s' r => Ended s' r) (runSreFlow imageHandle) {} := by
  refine steps_call_bind rfl ?_
  intro watchdog
  change (flow imageHandle).Steps _ _ {}
  refine Monitor.Steps.bind (steps_writeResultToNvRam (told_currentRecord {})) ?_
  intro s _ hrecorded
  have hbefore : Before s := by
    rw [hrecorded]
    exact ⟨rfl, rfl, rfl, rfl, rfl, rfl, rfl, rfl, rfl⟩
  refine (steps_connectAll hbefore.ramDp).bind ?_
  intro s' _ hsame
  rw [hsame]
  refine steps_call_bind trivial ?_
  rintro ⟨status, passThru⟩
  dsimp only
  by_cases hstatus : status.isError = true
  · have hnote : note s ⟨.gBSLocateProtocol .nvmExpressPassThru, some (status, passThru)⟩ =
        { s with blame := status } := if_pos hstatus
    have hinit : phaseOf s = .init := by
      rw [hrecorded]
      rfl
    have hrecord := hbefore.currentRecord
    rw [hinit] at hrecord
    rw [if_pos hstatus, hnote]
    exact steps_fail hrecord.symm rfl (.inl hstatus)
  have hnote : note s ⟨.gBSLocateProtocol .nvmExpressPassThru, some (status, passThru)⟩ =
      { s with located := true } := by
    simp [note, hstatus]
  rw [if_neg hstatus, hnote]
  have hlocated := hbefore.found
  have hphase : phaseOf { s with located := true } = .passthruLocated := by
    rw [phaseOf, if_neg hlocated.incomplete, if_pos rfl]
  have htold := told_currentRecord { s with located := true }
  rw [hlocated.currentRecord, hphase] at htold
  refine (steps_writeResultToNvRam htold).bind ?_
  rintro s₂ _ rfl
  exact steps_loadBootPartition (hlocated.recorded _) rfl

theorem steps_appEntry :
    (flow imageHandle).Steps (fun s' r => r = .success ∧ Ended s' s'.blame)
      (appEntry imageHandle) {} := by
  refine steps_runSreFlow.bind ?_
  intro s status hs
  have hended : Ended s s.blame := by
    rw [hs.blame]
    exact hs
  exact steps_call_bind hended fun _ => ⟨rfl, hended⟩

/-- Whatever the firmware and the controller answer. -/
theorem appEntry_guarded (imageHandle : Handle) (env : LoaderEnv) :
    let run := (appEntry imageHandle).run env []
    Guarded (fun h c => Permitted imageHandle ((flow imageHandle).state h) c) run.1 ∧
      ∀ r, run.2 = some r → r = .success ∧
        Ended ((flow imageHandle).state run.1) ((flow imageHandle).state run.1).blame :=
  steps_appEntry.sound fun _ _ _ _ => trivial

end BpRecoveryFlowRuns
