import OdpPlatform.BootPartitionLayout
import OdpPlatform.SreFmpFailure

/-! # The version reported and the version booted

GetVersion reads partition A, recovery boots partition B. Each partition records the version of
the last commit it accepted, so the two agree exactly while these two commits do. -/
namespace BootPartitionVersion

open ByteBuffer InteractionProgram InteractionContract FirmwareServices SreStorageNvme
open SreStorageGeometry SreStorageSession SreFmpDevice SreFmpImage BootPartitionDevice
open SreFmpSetImage SreFmpFailure PatinaBpLogPage BootPartitionLayout

structure Update where
  image : Option Bytes
  progress : Bool
  version : UInt32
  outputsNonNull : Bool

/-- Runs of SetImage and GetVersion calls; the log keeps each update with its commands. -/
inductive Updates (env : FirmwareEnv) (d₀ : SreFmp) :
    List (Update × List Command) → FirmwareTrace → SreFmp → Prop where
  | start : Updates env d₀ [] [] d₀
  | setImage {log h d u h' res cs} : Updates env d₀ log h d →
      (fmpDeviceSetImageWithStatus d u.image u.progress u.version u.outputsNonNull).run env h =
        (h', some res) →
      commandsOf h' = commandsOf h ++ cs → Updates env d₀ (log ++ [(u, cs)]) h' res.dev
  | getVersion {log h d b h' r} : Updates env d₀ log h d →
      (fmpDeviceGetVersion d.storage b).run env h = (h', some r) → Updates env d₀ log h' d

def Committed (p : PartitionIndex) (cs : List Command) : Prop := ∃ c ∈ cs, Commits p c

instance (p : PartitionIndex) (c : Command) : Decidable (Commits p c) :=
  inferInstanceAs (Decidable (_ ∧ _ ∧ _))

instance (p : PartitionIndex) (cs : List Command) : Decidable (Committed p cs) :=
  inferInstanceAs (Decidable (∃ c ∈ cs, Commits p c))

/-- The version of the last update whose commit of `p` was accepted, `v₀` before any. -/
def lastVersion (p : PartitionIndex) (v₀ : UInt32) (log : List (Update × List Command)) : UInt32 :=
  log.foldl (fun v e => if Committed p e.2 then e.1.version else v) v₀

theorem lastVersion_snoc (p : PartitionIndex) (v₀ : UInt32) (log : List (Update × List Command))
    (e : Update × List Command) : lastVersion p v₀ (log ++ [e]) =
      if Committed p e.2 then e.1.version else lastVersion p v₀ log := by
  simp [lastVersion]

/-- Where every update commits to both partitions or to neither, the versions agree. -/
theorem lastVersion_agree {v₀ : UInt32} {log : List (Update × List Command)}
    (hboth : ∀ e ∈ log, Committed srePartitionA e.2 ↔ Committed srePartitionB e.2) :
    lastVersion srePartitionA v₀ log = lastVersion srePartitionB v₀ log := by
  induction log using List.reverseRecOn with
  | nil => rfl
  | append_singleton log e ih =>
    have hlast := hboth e (List.mem_append_right _ List.mem_cons_self)
    rw [lastVersion_snoc, lastVersion_snoc, ih fun x hx => hboth x (List.mem_append_left _ hx)]
    simp only [hlast]

theorem content_of_not_committed {p : PartitionIndex} {cs : List Command} (d : Device)
    (hcs : ¬Committed p cs) : (d.after cs).content p = d.content p := by
  induction cs generalizing d with
  | nil => rfl
  | cons c cs ih =>
    rw [after_cons, ih _ fun ⟨x, hx, hcommit⟩ => hcs ⟨x, List.mem_cons_of_mem _ hx, hcommit⟩]
    unfold Device.step
    split
    next hr =>
      split
      · rfl
      split
      next hop =>
        refine Function.update_of_ne (fun hp => hcs ⟨c, List.mem_cons_self, hop, hp.symm, hr⟩) _ _
      · rfl
    · rfl

theorem downloaded_not_commit {s : SreStorage} {content : Bytes} {n : ℕ} {cs : List Command}
    (hd : Downloaded s content n cs) {c : Command} (hc : c ∈ cs) :
    c.1.command.opcode = nvmeAdminFwImageDownloadCmd := by
  have hmem : c.1 ∈ cs.map Prod.fst := List.mem_map_of_mem hc
  rw [hd.1] at hmem
  obtain ⟨i, _, hi⟩ := List.mem_map.mp hmem
  rw [← hi]
  rfl

section Apply

variable {s : SreStorage} {image : Bytes} {v : UInt32} {p q : PartitionIndex} {st : Status}

/-- An apply commits only its own partition, and then it succeeds. -/
theorem applied_committed (hq : IsPartition q) {cs : List Command}
    (ha : Applied s q image v cs st) (hcommit : Committed p cs) : p = q ∧ st = .success := by
  have hnotlock : ∀ l r, ¬Commits p (lockPacket q l, r) := fun l r hc =>
    absurd hc.1 (by decide : ¬nvmeAdminSetFeaturesCmd = nvmeAdminFwCommitCmd)
  obtain ⟨c, hc, hcommit⟩ := hcommit
  cases ha with
  | unopened _ hcs => exact absurd hcommit.2.2 (hcs c hc).2
  | @abandoned r cs fails j r' _ _ _ _ hdown hrej =>
    rcases List.mem_cons.mp hc with rfl | hc
    · exact absurd hcommit (hnotlock _ _)
    rcases List.mem_append.mp hc with hc | hc
    · rcases List.mem_append.mp hc with hc | hc
      · have hop := downloaded_not_commit hdown hc
        rw [hcommit.1] at hop
        exact absurd hop (by decide)
      · exact absurd hcommit.2.2 (hrej c hc).2
    · cases List.mem_singleton.mp hc
      exact absurd hcommit (hnotlock _ _)
  | committed _ hdown _ =>
    rcases List.mem_cons.mp hc with rfl | hc
    · exact absurd hcommit (hnotlock _ _)
    rcases List.mem_append.mp hc with hc | hc
    · have hop := downloaded_not_commit hdown hc
      rw [hcommit.1] at hop
      exact absurd hop (by decide)
    · cases List.mem_singleton.mp hc
      have hle : q ≤ srePartitionB := by rcases hq with rfl | rfl <;> decide
      exact ⟨hcommit.2.1.symm.trans (commitPacket_bpid hle), rfl⟩

theorem recordedVersion_append {content tail : Bytes}
    (hd : sreImageInfoOffset + sizeofSreImageInfo ≤ content.length) :
    recordedVersion (content ++ tail) = recordedVersion content := by
  unfold sizeofSreImageInfo at hd
  have hword : ∀ k, k + 4 ≤ 32 → leWord ((content ++ tail).drop (sreImageInfoOffset + k)) =
      leWord (content.drop (sreImageInfoOffset + k)) := by
    intro k hk
    rw [← leWord_window, window_append_left (by omega), leWord_window]
  have hsig := hword 0 (by omega)
  rw [Nat.add_zero] at hsig
  rw [recordedVersion, hsig, hword 4 (by omega), hword 8 (by omega)]
  rfl

/-- The partition an apply commits holds the stamped image and records its version. -/
theorem applied_version (hs : Usable s) (himage : image.length ≤ s.mBlockCount * s.mBlockSize)
    (hq : IsPartition q) {cs : List Command} (ha : Applied s q image v cs st)
    (hcommit : Committed q cs) (d : Device) :
    s.mBlockCount * s.mBlockSize ≤ ((d.after cs).content q).length ∧
      recordedVersion ((d.after cs).content q) = v := by
  obtain ⟨_, rfl⟩ := applied_committed hq ha hcommit
  have hle : q ≤ srePartitionB := by rcases hq with rfl | rfl <;> decide
  have hlen := length_stampedImage (v := v) (descriptor_in hs) himage
  have hout := applied_outcome hs hle himage ha d
  generalize d.after cs = d' at hout
  cases hout with
  | failed he => cases he
  | committed =>
    dsimp only
    rw [Function.update_self, staged, splice, List.take_zero, List.nil_append]
    refine ⟨by rw [List.length_append, hlen]; omega, ?_⟩
    rw [recordedVersion_append (by rw [hlen]; exact descriptor_in hs),
      recordedVersion_stampedImage (descriptor_in hs) himage]

end Apply

/-- What one update does to a partition: it records the version, or nothing changes. -/
structure Records (s : SreStorage) (v : UInt32) (p : PartitionIndex) (cs : List Command)
    (d : Device) : Prop where
  version : recordedVersion ((d.after cs).content p) =
    if Committed p cs then v else recordedVersion (d.content p)
  length : s.mBlockCount * s.mBlockSize ≤ (d.content p).length →
    s.mBlockCount * s.mBlockSize ≤ ((d.after cs).content p).length

theorem records_nothing {s : SreStorage} {v : UInt32} {p : PartitionIndex} {cs : List Command}
    {d : Device} (hcs : ¬Committed p cs) : Records s v p cs d where
  version := by rw [if_neg hcs, content_of_not_committed d hcs]
  length hlen := by rwa [content_of_not_committed d hcs]

theorem committed_append {p : PartitionIndex} {cs cs' : List Command} :
    Committed p (cs ++ cs') ↔ Committed p cs ∨ Committed p cs' := by
  simp only [Committed, List.mem_append, or_and_right, exists_or]

section Calls

variable {env : FirmwareEnv} {D : Device}

theorem setImage_records {d : SreFmp} {u : Update} {h h' : FirmwareTrace} {res : SetImageResult}
    {cs : List Command} (hs : Usable d.storage) (hclosed : d.storage.mIsWriteOpen = false)
    (hrun : (fmpDeviceSetImageWithStatus d u.image u.progress u.version u.outputsNonNull).run env h =
      (h', some res)) (hcs : commandsOf h' = commandsOf h ++ cs) :
    ClosedLike d.storage res.dev.storage ∧
      ∀ D p, IsPartition p → Records d.storage u.version p cs D := by
  have hquiet : cs = [] → ∀ D p, IsPartition p → Records d.storage u.version p cs D :=
    fun hnil D p _ => records_nothing (by rw [hnil]; exact fun ⟨_, hc, _⟩ => by cases hc)
  cases setImage_returned hrun with
  | invalid | unchecked =>
    exact ⟨.refl hs hclosed, hquiet (List.self_eq_append_right.mp hcs)⟩
  | unfit =>
    rw [commandsOf_quiet rfl] at hcs
    exact ⟨.refl hs hclosed, hquiet (List.self_eq_append_right.mp hcs)⟩
  | @applied bytes statusA statusB h₁ d' r hp himage hboth =>
    obtain ⟨_, himage', _, _, _, hfit⟩ := passes_iff.mp hp
    rw [himage] at himage'
    cases himage'
    obtain ⟨⟨csA, csB, hcs', happA, happB⟩, hlike⟩ := bothApplied_commands hs hclosed hfit hboth
    rw [commandsOf_quiet rfl, hcs', List.append_assoc] at hcs
    obtain rfl := List.append_cancel_left hcs
    have hA : IsPartition srePartitionA := Or.inl rfl
    have hB : IsPartition srePartitionB := Or.inr rfl
    refine ⟨hlike, fun D p hpart => ?_⟩
    -- the second apply leaves partition A alone, the first one partition B
    rcases hpart with rfl | rfl
    · have hnotB : ¬Committed srePartitionA csB := fun hc =>
        absurd (applied_committed hB happB hc).1 (by decide)
      have hsame : (D.after (csA ++ csB)).content srePartitionA =
          (D.after csA).content srePartitionA := by
        rw [after_append, content_of_not_committed _ hnotB]
      by_cases hc : Committed srePartitionA csA
      · obtain ⟨hlen, hver⟩ := applied_version hs hfit hA happA hc D
        exact ⟨by rw [if_pos (committed_append.mpr (Or.inl hc)), hsame, hver],
          fun _ => by rwa [hsame]⟩
      · exact records_nothing fun h => (committed_append.mp h).elim hc hnotB
    · have hnotA : ¬Committed srePartitionB csA := fun hc =>
        absurd (applied_committed hA happA hc).1 (by decide)
      by_cases hc : Committed srePartitionB csB
      · obtain ⟨hlen, hver⟩ := applied_version hs hfit hB happB hc (D.after csA)
        rw [← after_append] at hlen hver
        exact ⟨by rw [if_pos (committed_append.mpr (Or.inr hc)), hver], fun _ => hlen⟩
      · exact records_nothing fun h => (committed_append.mp h).elim hnotA hc

def ReadCall : Call → Prop
  | .passThru p => p.command.opcode = nvmeAdminGetLogPageCmd
  | .allocateAlignedPages _ _ | .freeAlignedPages _ _ => True
  | _ => False

theorem only_executeNvmePassThru (s : SreStorage) {packet : Packet}
    (hread : packet.command.opcode = nvmeAdminGetLogPageCmd) :
    Only ReadCall (executeNvmePassThru s packet) := by
  unfold executeNvmePassThru
  split
  · trivial
  refine Only.bind ((only_call _).mpr hread) fun c => ?_
  split
  · trivial
  · split <;> trivial

theorem only_sreStorageRead (s : SreStorage) (partitionIndex : PartitionIndex) (blockIndex : ℕ)
    (blockBuffer : Option Buffer) :
    Only ReadCall (sreStorageRead s partitionIndex blockIndex blockBuffer) := by
  unfold sreStorageRead
  split
  · trivial
  split
  · trivial
  split
  · trivial
  split
  · trivial
  split
  · trivial
  split
  · trivial
  · exact only_executeNvmePassThru s rfl

theorem only_getVersion (s : SreStorage) (b : Bool) : Only ReadCall (fmpDeviceGetVersion s b) := by
  unfold fmpDeviceGetVersion
  split
  · trivial
  split
  · trivial
  refine Only.bind ((only_call _).mpr trivial) fun buffer => ?_
  split
  · trivial
  refine Only.bind (only_sreStorageRead s _ _ _) fun r => ⟨trivial, fun _ => ?_⟩
  dsimp only
  split
  · trivial
  · split <;> trivial

theorem getVersion_reads {s : SreStorage} {b : Bool} {h h' : FirmwareTrace}
    {r : Option (Status × Option UInt32)} (hrun : (fmpDeviceGetVersion s b).run env h = (h', r)) :
    D.after (commandsOf h') = D.after (commandsOf h) := by
  obtain ⟨τ, hτ, hall⟩ := (only_getVersion s b).run env h
  rw [hrun] at hτ
  have hreads : ∀ c ∈ commandsOf τ, c.1.command.opcode = nvmeAdminGetLogPageCmd := by
    intro c hc
    obtain ⟨e, he, hec⟩ := List.mem_filterMap.mp hc
    have hcall := hall e he
    unfold completed at hec
    split at hec
    · cases hec
      exact hcall
    · cases hec
  dsimp only at hτ
  rw [hτ, commandsOf_append, after_append, after_reads _ hreads]

/-- The run invariant: each partition records the version of the last commit it accepted. -/
structure Reached (D : Device) (s : SreStorage) (log : List (Update × List Command))
    (h : FirmwareTrace) (d : SreFmp) : Prop where
  like : ClosedLike s d.storage
  version : ∀ p, IsPartition p → recordedVersion ((D.after (commandsOf h)).content p) =
    lastVersion p (recordedVersion (D.content p)) log
  length : ∀ p, IsPartition p →
    s.mBlockCount * s.mBlockSize ≤ ((D.after (commandsOf h)).content p).length

theorem updates_reached {d₀ d : SreFmp} {log : List (Update × List Command)} {h : FirmwareTrace}
    (hs : Usable d₀.storage) (hclosed : d₀.storage.mIsWriteOpen = false)
    (hsize : ∀ p, IsPartition p →
      d₀.storage.mBlockCount * d₀.storage.mBlockSize ≤ (D.content p).length)
    (hrun : Updates env d₀ log h d) : Reached D d₀.storage log h d := by
  induction hrun with
  | start => exact ⟨.refl hs hclosed, fun _ _ => rfl, hsize⟩
  | @setImage log h d u h' res cs _ hcall hcs ih =>
    obtain ⟨hlike, hrec⟩ := setImage_records ih.like.usable ih.like.closed hcall hcs
    refine ⟨⟨hlike.closed, hlike.usable, hlike.count_eq.trans ih.like.count_eq,
      hlike.size_eq.trans ih.like.size_eq⟩, fun p hp => ?_, fun p hp => ?_⟩
    · rw [hcs, after_append, (hrec _ p hp).version, ih.version p hp, lastVersion_snoc]
    · have hlen := (hrec (D.after (commandsOf h)) p hp).length
      rw [ih.like.count_eq, ih.like.size_eq] at hlen
      rw [hcs, after_append]
      exact hlen (ih.length p hp)
  | @getVersion log h d b h' r _ hcall ih =>
    have hsame := getVersion_reads (D := D) hcall
    exact ⟨ih.like, fun p hp => by rw [hsame, ih.version p hp],
      fun p hp => by rw [hsame]; exact ih.length p hp⟩

/-- What GetVersion reports is what partition A records. -/
theorem reported_version {d₀ d : SreFmp}
    {log : List (Update × List Command)} {h : FirmwareTrace} {v : UInt32}
    (hserves : Serves D env (fmpDeviceGetVersion d.storage true) h)
    (hreached : Reached D d₀.storage log h d)
    (hv : ((fmpDeviceGetVersion d.storage true).run env h).2 = some (.success, some v)) :
    v = recordedVersion ((D.after (commandsOf h)).content srePartitionA) := by
  have hlen := hreached.length srePartitionA (Or.inl rfl)
  rw [← hreached.like.count_eq, ← hreached.like.size_eq] at hlen
  rw [getVersion_returns hreached.like.usable hreached.like.closed hserves rfl hlen] at hv
  unfold versionResult at hv
  split at hv
  · cases hv
  · cases hv
    rfl

/-- GetVersion reports the version of the partition that recovery reads exactly while the last
commits of the two partitions agree, so wherever each update commits both or neither. -/
theorem reported_version_booted_iff {d₀ d : SreFmp}
    {log : List (Update × List Command)} {h : FirmwareTrace}
    (hserves : Serves D env (fmpDeviceGetVersion d.storage true) h) (hs : Usable d₀.storage)
    (hclosed : d₀.storage.mIsWriteOpen = false)
    (hequal : D.content srePartitionA = D.content srePartitionB)
    (hsize : d₀.storage.mBlockCount * d₀.storage.mBlockSize ≤ (D.content srePartitionA).length)
    (hrun : Updates env d₀ log h d) :
    (∀ v, ((fmpDeviceGetVersion d.storage true).run env h).2 = some (.success, some v) →
      (v = recordedVersion ((D.after (commandsOf h)).content targetBpid.toUInt32) ↔
        lastVersion srePartitionA (recordedVersion (D.content srePartitionA)) log =
          lastVersion srePartitionB (recordedVersion (D.content srePartitionA)) log)) ∧
    ((∀ e ∈ log, Committed srePartitionA e.2 ↔ Committed srePartitionB e.2) →
      ∀ v, ((fmpDeviceGetVersion d.storage true).run env h).2 = some (.success, some v) →
        v = recordedVersion ((D.after (commandsOf h)).content targetBpid.toUInt32)) := by
  have hreached : Reached D d₀.storage log h d := by
    refine updates_reached hs hclosed (fun p hp => ?_) hrun
    rcases hp with rfl | rfl
    · exact hsize
    · rwa [← hequal]
  have hA := hreached.version srePartitionA (Or.inl rfl)
  have hB := hreached.version srePartitionB (Or.inr rfl)
  have htarget : targetBpid.toUInt32 = srePartitionB := rfl
  rw [← hequal] at hB
  have hiff : ∀ v, ((fmpDeviceGetVersion d.storage true).run env h).2 =
      some (.success, some v) →
      (v = recordedVersion ((D.after (commandsOf h)).content targetBpid.toUInt32) ↔
        lastVersion srePartitionA (recordedVersion (D.content srePartitionA)) log =
          lastVersion srePartitionB (recordedVersion (D.content srePartitionA)) log) := by
    intro v hv
    rw [reported_version hserves hreached hv, htarget, hA, hB]
  exact ⟨hiff, fun hboth v hv => (hiff v hv).mpr (lastVersion_agree hboth)⟩

def updateOne : Update := ⟨some [1, 2, 3], true, 7, true⟩

abbrev runOne (env : FirmwareEnv) : FirmwareTrace × Option SetImageResult :=
  (fmpDeviceSetImageWithStatus ⟨oneBlock, 0⟩ updateOne.image updateOne.progress updateOne.version
    updateOne.outputsNonNull).run env []

theorem updates_one {env : FirmwareEnv} {res : SetImageResult}
    (hres : (runOne env).2 = some res) :
    Updates env ⟨oneBlock, 0⟩ [(updateOne, commandsOf (runOne env).1)] (runOne env).1 res.dev :=
  .setImage .start (Prod.ext rfl hres) rfl

theorem length_blank (p : PartitionIndex) :
    oneBlock.mBlockCount * oneBlock.mBlockSize ≤ (blankDevice.content p).length := by
  rw [blankDevice, List.length_replicate]
  decide

theorem content_blank :
    blankDevice.content srePartitionA = blankDevice.content srePartitionB := by
  rw [blankDevice]

def updatedOne : SreFmp := ⟨{ oneBlock with mPartitionIndex := srePartitionB }, 50⟩

theorem updates_accepting : Updates acceptingEnv ⟨oneBlock, 0⟩
    [(updateOne, commandsOf (runOne acceptingEnv).1)] (runOne acceptingEnv).1 updatedOne :=
  updates_one acceptingEnv_updated

theorem reported_version_booted_iff_one_block :
    (∀ v, ((fmpDeviceGetVersion updatedOne.storage true).run
        acceptingEnv (runOne acceptingEnv).1).2 = some (.success, some v) →
      (v = recordedVersion ((blankDevice.after
          (commandsOf (runOne acceptingEnv).1)).content targetBpid.toUInt32) ↔
        lastVersion srePartitionA (recordedVersion (blankDevice.content srePartitionA))
            [(updateOne, commandsOf (runOne acceptingEnv).1)] =
          lastVersion srePartitionB (recordedVersion (blankDevice.content srePartitionA))
            [(updateOne, commandsOf (runOne acceptingEnv).1)])) ∧
    ((∀ e ∈ [(updateOne, commandsOf (runOne acceptingEnv).1)],
        Committed srePartitionA e.2 ↔ Committed srePartitionB e.2) →
      ∀ v, ((fmpDeviceGetVersion updatedOne.storage true).run
          acceptingEnv (runOne acceptingEnv).1).2 = some (.success, some v) →
        v = recordedVersion ((blankDevice.after
          (commandsOf (runOne acceptingEnv).1)).content targetBpid.toUInt32)) :=
  reported_version_booted_iff (servingEnv_serves blankDevice _ _ _) oneBlock_usable rfl content_blank
    (length_blank _) updates_accepting

def rejectsB : FirmwareEnv := servingEnv blankDevice (isCommitOf srePartitionB)

theorem rejectsB_returns : (runOne rejectsB).2 =
    some ⟨efiAborted, some lastAttemptStatusErrorUnsuccessful,
      ⟨{ oneBlock with mPartitionIndex := srePartitionB }, 50⟩⟩ := by
  decide

theorem rejectsB_commits : Committed srePartitionA (commandsOf (runOne rejectsB).1) ∧
    ¬Committed srePartitionB (commandsOf (runOne rejectsB).1) := by
  decide

theorem recordedVersion_blank (p : PartitionIndex) :
    recordedVersion (blankDevice.content p) = 0 := by
  have hsig : leWord ((blankDevice.content p).drop sreImageInfoOffset) = 0 := by
    rw [blankDevice, List.drop_replicate]
    rfl
  rw [recordedVersion, hsig, if_pos (Or.inl (by decide))]

/-- Version 7 is reported, the image that recovery would boot records 0. -/
theorem other_partition_reported :
    blankDevice.content srePartitionA = blankDevice.content srePartitionB ∧
    ∃ log h d v, Updates rejectsB ⟨oneBlock, 0⟩ log h d ∧
      Serves blankDevice rejectsB (fmpDeviceGetVersion d.storage true) h ∧
      ((fmpDeviceGetVersion d.storage true).run rejectsB h).2 = some (.success, some v) ∧
      v ≠ recordedVersion ((blankDevice.after (commandsOf h)).content targetBpid.toUInt32) := by
  have hrun := updates_one rejectsB_returns
  have hreached : Reached blankDevice oneBlock _ _ _ :=
    updates_reached oneBlock_usable rfl (fun p _ => length_blank p) hrun
  have hA := hreached.version srePartitionA (Or.inl rfl)
  have hB := hreached.version srePartitionB (Or.inr rfl)
  obtain ⟨hcommit, hnone⟩ := rejectsB_commits
  simp only [lastVersion, List.foldl_cons, List.foldl_nil, if_pos hcommit] at hA
  simp only [lastVersion, List.foldl_cons, List.foldl_nil, if_neg hnone,
    recordedVersion_blank] at hB
  have hserves := servingEnv_serves blankDevice (isCommitOf srePartitionB)
    (fmpDeviceGetVersion { oneBlock with mPartitionIndex := srePartitionB } true)
    (runOne rejectsB).1
  refine ⟨content_blank, _, _, _, _, hrun, hserves, getVersion_returns hreached.like.usable
    hreached.like.closed hserves rfl (hreached.length srePartitionA (Or.inl rfl)), ?_⟩
  rw [hA]
  exact fun h => absurd (h.trans hB) (by decide)

end Calls

end BootPartitionVersion
