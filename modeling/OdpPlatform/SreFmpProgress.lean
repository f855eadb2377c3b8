import OdpPlatform.SreFmpFailure

/-! # SreFmpDeviceLib.c: what the progress callback is told

The reports of an apply climb with the blocks, whatever the static LastPercent holds: it only
keeps a report from being repeated. The last one follows the last block. -/
namespace SreFmpProgress

open ByteBuffer InteractionProgram InteractionContract FirmwareServices SreStorageNvme
open SreStorageGeometry SreStorageSession SreFmpDevice SreFmpSetImage SreFmpFailure

def percentOf : Event Answer → Option ℕ
  | ⟨.progress percent, _⟩ => some percent
  | _ => none

def percentsOf (τ : FirmwareTrace) : List ℕ := τ.filterMap percentOf

def acceptedBlock : Event Answer → Option NvmeCommand
  | ⟨.passThru p, some r⟩ =>
    if p.command.opcode = nvmeAdminFwImageDownloadCmd ∧ r.Accepted then some p.command else none
  | _ => none

def acceptedBlocks (τ : FirmwareTrace) : List NvmeCommand := τ.filterMap acceptedBlock

def blockCommands (s : SreStorage) (n : ℕ) : List NvmeCommand :=
  (List.range n).map fun i => downloadCommand { s with mBlockIndex := i }

@[simp] theorem percentsOf_append (σ τ : FirmwareTrace) :
    percentsOf (σ ++ τ) = percentsOf σ ++ percentsOf τ := List.filterMap_append

@[simp] theorem acceptedBlocks_append (σ τ : FirmwareTrace) :
    acceptedBlocks (σ ++ τ) = acceptedBlocks σ ++ acceptedBlocks τ := List.filterMap_append

theorem blockCommands_succ (s : SreStorage) (n : ℕ) :
    blockCommands s (n + 1) =
      blockCommands s n ++ [downloadCommand { s with mBlockIndex := n }] := by
  rw [blockCommands, List.range_succ, List.map_append]
  rfl

def Silent : Call → Prop
  | .progress _ => False
  | _ => True

theorem silent_of_deviceCall (c : Call) (h : DeviceCall c) : Silent c := by
  cases c with
  | progress percent => exact False.elim h
  | _ => trivial

theorem percentsOf_silent {σ : FirmwareTrace} (h : ∀ e ∈ σ, Silent e.call) : percentsOf σ = [] := by
  apply List.filterMap_eq_nil_iff.mpr
  intro ⟨c, a⟩ he
  have hcall := h _ he
  cases c with
  | progress percent => exact False.elim hcall
  | _ => rfl

def SameGeometry (s t : SreStorage) : Prop :=
  t.mBlockCount = s.mBlockCount ∧ t.mBlockSize = s.mBlockSize

theorem SameGeometry.trans {s t u : SreStorage} (h : SameGeometry s t) (h' : SameGeometry t u) :
    SameGeometry s u := ⟨h'.1.trans h.1, h'.2.trans h.2⟩

theorem blockCommands_congr {s t : SreStorage} (h : SameGeometry s t) :
    blockCommands t t.mBlockCount = blockCommands s s.mBlockCount := by
  obtain ⟨hcount, hsize⟩ := h
  have hcommand : ∀ i, downloadCommand { t with mBlockIndex := i } =
      downloadCommand { s with mBlockIndex := i } := by
    intro i
    simp only [downloadCommand, hsize]
  rw [blockCommands, blockCommands, hcount]
  exact List.map_congr_left fun i _ => hcommand i

theorem mem_percentsOf {τ mid post : FirmwareTrace} {x : ℕ} {a : Option Unit}
    (h : τ = mid ++ ⟨.progress x, a⟩ :: post) : x ∈ percentsOf τ := by
  rw [h, percentsOf_append]
  exact List.mem_append_right _ List.mem_cons_self

structure Climbs (lo hi : ℕ) (τ : FirmwareTrace) : Prop where
  sorted : (percentsOf τ).Pairwise (· ≤ ·)
  bounds : ∀ x ∈ percentsOf τ, lo ≤ x ∧ x ≤ hi

namespace Climbs

variable {lo hi : ℕ} {τ : FirmwareTrace}

theorem nil : Climbs lo hi [] := ⟨List.Pairwise.nil, List.forall_mem_nil _⟩

theorem mono (h : Climbs lo hi τ) {hi' : ℕ} (hle : hi ≤ hi') : Climbs lo hi' τ :=
  ⟨h.sorted, fun x hx => ⟨(h.bounds x hx).1, (h.bounds x hx).2.trans hle⟩⟩

theorem quiet (h : Climbs lo hi τ) {σ : FirmwareTrace} (hσ : percentsOf σ = []) :
    Climbs lo hi (τ ++ σ) := by
  have hsame : percentsOf (τ ++ σ) = percentsOf τ := by
    rw [percentsOf_append, hσ, List.append_nil]
  exact ⟨hsame ▸ h.sorted, hsame ▸ h.bounds⟩

theorem report (h : Climbs lo hi τ) {x : ℕ} (hlo : lo ≤ x) (hx : hi ≤ x) (a : Option Unit) :
    Climbs lo x (τ ++ [⟨.progress x, a⟩]) := by
  have hlast : percentsOf (τ ++ [⟨.progress x, a⟩]) = percentsOf τ ++ [x] := percentsOf_append _ _
  have hle : ∀ y ∈ percentsOf τ, y ≤ x := fun y hy => (h.bounds y hy).2.trans hx
  constructor
  · rw [hlast, List.pairwise_append]
    refine ⟨h.sorted, List.pairwise_singleton _ _, ?_⟩
    intro y hy z hz
    rw [List.mem_singleton.mp hz]
    exact hle y hy
  · rw [hlast]
    refine List.forall_mem_append.mpr ⟨fun y hy => ⟨(h.bounds y hy).1, hle y hy⟩, ?_⟩
    exact List.forall_mem_singleton.mpr ⟨hlo, Nat.le_refl x⟩

end Climbs

structure Reported (s : SreStorage) (lo : ℕ) (τ : FirmwareTrace) : Prop extends
    Climbs lo (lo + 50) τ where
  full : ∀ mid a post, τ = mid ++ ⟨.progress (lo + 50), a⟩ :: post →
    acceptedBlocks mid = blockCommands s s.mBlockCount

namespace Reported

variable {s : SreStorage} {lo hi : ℕ} {τ : FirmwareTrace}

theorem of_climbs (h : Climbs lo hi τ) (hlt : hi < lo + 50) : Reported s lo τ := by
  refine ⟨h.mono hlt.le, ?_⟩
  intro mid a post hτ
  have hle := (h.bounds _ (mem_percentsOf hτ)).2
  omega

theorem top (h : Climbs lo hi τ) (hlt : hi < lo + 50)
    (hall : acceptedBlocks τ = blockCommands s s.mBlockCount) (a : Option Unit) :
    Reported s lo (τ ++ [⟨.progress (lo + 50), a⟩]) := by
  refine ⟨h.report (Nat.le_add_right _ _) hlt.le a, ?_⟩
  intro mid b post hτ
  cases split_snoc hτ with
  | inl hend =>
    rw [← hend.1]
    exact hall
  | inr hinside =>
    obtain ⟨post', -, hbefore⟩ := hinside
    have hle := (h.bounds _ (mem_percentsOf hbefore)).2
    omega

theorem congr {t : SreStorage} (h : Reported t lo τ) (ht : SameGeometry s t) : Reported s lo τ := by
  refine ⟨h.toClimbs, ?_⟩
  intro mid a post hτ
  rw [← blockCommands_congr ht]
  exact h.full mid a post hτ

theorem quiet (h : Reported s lo τ) {σ : FirmwareTrace} (hσ : percentsOf σ = []) :
    Reported s lo (τ ++ σ) := by
  refine ⟨h.toClimbs.quiet hσ, ?_⟩
  intro mid a post hsplit
  cases List.append_eq_append_iff.mp hsplit with
  | inl hlate =>
    obtain ⟨front, -, hin⟩ := hlate
    have hmem := mem_percentsOf hin
    rw [hσ] at hmem
    cases hmem
  | inr hearly =>
    obtain ⟨rest, hτ, hrest⟩ := hearly
    cases rest with
    | nil =>
      have hfront : σ = [] ++ ⟨.progress (lo + 50), a⟩ :: post := hrest.symm
      have hmem := mem_percentsOf hfront
      rw [hσ] at hmem
      cases hmem
    | cons e rest =>
      obtain ⟨he, -⟩ := List.cons_eq_cons.mp hrest
      rw [← he] at hτ
      exact h.full mid a rest hτ

end Reported

theorem acceptedBlock_isSome {p : Packet} {r : Completion} (hr : r.Accepted)
    (hp : p.command.opcode = nvmeAdminFwImageDownloadCmd) :
    acceptedBlocks [⟨.passThru p, some r⟩] = [p.command] := by
  rw [acceptedBlocks, List.filterMap_cons, acceptedBlock, if_pos ⟨hp, hr⟩]
  rfl

theorem acceptedBlock_none {p : Packet} (hp : p.command.opcode ≠ nvmeAdminFwImageDownloadCmd)
    (r : Option Completion) : acceptedBlocks [⟨.passThru p, r⟩] = [] := by
  cases r with
  | none => rfl
  | some r =>
    have hnot : ¬(p.command.opcode = nvmeAdminFwImageDownloadCmd ∧ r.Accepted) := fun h => hp h.1
    rw [acceptedBlocks, List.filterMap_cons, acceptedBlock, if_neg hnot]
    rfl

/-- Nothing is asked without the pass-through protocol. -/
theorem executeNvmePassThru_meets (s : SreStorage) (p : Packet) (h : FirmwareTrace) :
    Meets .free (fun h' res => res.1.isError = false →
      ∃ r : Completion, r.Accepted ∧ h' = h ++ [⟨.passThru p, some r⟩])
      (executeNvmePassThru s p) h := by
  by_cases hl : s.mNvmePassThru = true
  · rw [executeNvmePassThru_eq hl]
    exact ⟨trivial, fun r _ hok => ⟨r, completionStatus_isError.mp hok, rfl⟩⟩
  · have hl' : s.mNvmePassThru = false := Bool.eq_false_of_not_eq_true hl
    rw [executeNvmePassThru, if_pos hl']
    intro hok
    cases hok

/-- A block that is written was accepted. -/
theorem writeBlock_meets (s : SreStorage) (b : Buffer) (h : FirmwareTrace) :
    Meets .free (fun h' res => SameGeometry s res.2 ∧ (res.1.isError = false →
      ∃ σ, h' = h ++ σ ∧ acceptedBlocks σ = [downloadCommand s] ∧
        res.2 = { s with mBlockIndex := s.mBlockIndex + 1 }))
      (sreStorageWriteBlock s (some b)) h := by
  unfold sreStorageWriteBlock
  dsimp only
  by_cases hsup : s.mIsSupported = false
  · rw [if_pos hsup]
    exact ⟨⟨rfl, rfl⟩, nofun⟩
  rw [if_neg hsup]
  by_cases hopen : s.mIsWriteOpen = false
  · rw [if_pos hopen]
    exact ⟨⟨rfl, rfl⟩, nofun⟩
  rw [if_neg hopen]
  by_cases hend : s.mBlockIndex ≥ s.mBlockCount
  · rw [if_pos hend]
    exact ⟨⟨rfl, rfl⟩, nofun⟩
  rw [if_neg hend]
  by_cases halign : b.address % s.mBlockAlignment ≠ 0
  · rw [if_pos halign]
    exact ⟨⟨rfl, rfl⟩, nofun⟩
  rw [if_neg halign]
  refine (executeNvmePassThru_meets s (downloadPacket s b.bytes) h).bind ?_
  intro h' res _ hres
  by_cases herr : res.1.isError = true
  · rw [if_pos herr]
    refine ⟨⟨rfl, rfl⟩, ?_⟩
    intro hok
    rw [herr] at hok
    cases hok
  · rw [if_neg herr]
    refine ⟨⟨rfl, rfl⟩, ?_⟩
    intro hok
    obtain ⟨r, hr, hh'⟩ := hres hok
    exact ⟨_, hh', acceptedBlock_isSome hr rfl, rfl⟩

/-- An Open sends one command at most, and no block. -/
theorem writeOpen_meets (s : SreStorage) (p : PartitionIndex) (h : FirmwareTrace) :
    Meets .free (fun h' res => SameGeometry s res.2 ∧ (res.1.isError = false →
      ∃ σ, h' = h ++ σ ∧ acceptedBlocks σ = [] ∧
        res.2 = { s with mPartitionIndex := p, mBlockIndex := 0, mIsWriteOpen := true }))
      (sreStorageWriteOpen s p) h := by
  unfold sreStorageWriteOpen
  by_cases hp : p > srePartitionB
  · rw [if_pos hp]
    exact ⟨⟨rfl, rfl⟩, nofun⟩
  rw [if_neg hp]
  by_cases hsup : s.mIsSupported = false
  · rw [if_pos hsup]
    exact ⟨⟨rfl, rfl⟩, nofun⟩
  rw [if_neg hsup]
  by_cases hopen : s.mIsWriteOpen = true
  · rw [if_pos hopen]
    exact ⟨⟨rfl, rfl⟩, nofun⟩
  rw [if_neg hopen]
  have hlock : Meets .free (fun h' st => st.isError = false →
      ∃ r : Completion, h' = h ++ [⟨.passThru (lockPacket p .writeUnlocked), some r⟩])
      (nvmeSetLockState s p .writeUnlocked) h := by
    rw [nvmeSetLockState, if_neg hp]
    refine (executeNvmePassThru_meets s (lockPacket p .writeUnlocked) h).bind ?_
    intro h' res _ hres hok
    obtain ⟨r, -, hh'⟩ := hres hok
    exact ⟨r, hh'⟩
  refine hlock.bind ?_
  intro h' st _ hst
  by_cases herr : st.isError = true
  · rw [if_pos herr]
    refine ⟨⟨rfl, rfl⟩, ?_⟩
    intro hok
    rw [herr] at hok
    cases hok
  · rw [if_neg herr]
    refine ⟨⟨rfl, rfl⟩, ?_⟩
    intro _
    obtain ⟨r, hh'⟩ := hst (Bool.eq_false_of_not_eq_true herr)
    have hopcode : (lockPacket p .writeUnlocked).command.opcode ≠ nvmeAdminFwImageDownloadCmd := by
      change nvmeAdminSetFeaturesCmd ≠ nvmeAdminFwImageDownloadCmd
      decide
    exact ⟨_, hh', acceptedBlock_none hopcode (some r), rfl⟩

theorem writeClose_geometry (s : SreStorage) (h : FirmwareTrace) :
    Meets .free (fun _ res => SameGeometry s res.2) (sreStorageWriteClose s) h := by
  unfold sreStorageWriteClose
  split
  · exact ⟨rfl, rfl⟩
  split
  · exact ⟨rfl, rfl⟩
  split
  · exact ⟨rfl, rfl⟩
  refine (Meets.trivial (fun _ _ => trivial) (executeNvmePassThru s _) h).bind ?_
  intro h' res _ _
  dsimp only
  split
  · exact ⟨rfl, rfl⟩
  · exact ⟨rfl, rfl⟩

theorem writeAbort_geometry (s : SreStorage) (h : FirmwareTrace) :
    Meets .free (fun _ res => SameGeometry s res.2) (sreStorageWriteAbort s) h := by
  unfold sreStorageWriteAbort
  split
  · exact ⟨rfl, rfl⟩
  split
  · exact ⟨rfl, rfl⟩
  exact (Meets.trivial (fun _ _ => trivial) (nvmeSetLockState s _ _) h).bind
    fun _ _ _ _ => ⟨rfl, rfl⟩

variable {s : SreStorage} {lo i : ℕ} {a : ApplyParams} {st : ApplyState} {h₀ τ : FirmwareTrace}

/-- At most one report, of the block that is next. -/
theorem sreProgress_ends (d : SreFmp) {p : PartitionIndex} (hlo : p.toNat * 50 = lo) (n : ℕ)
    (hclimbs : Climbs lo (i * 50 / n + lo) τ) :
    Ends (fun h' x => ∃ τ', h' = h₀ ++ τ' ∧ Climbs lo (i * 50 / n + lo) τ' ∧
        acceptedBlocks τ' = acceptedBlocks τ ∧ ∀ d', x = some d' → d'.storage = d.storage)
      (sreProgress d p i n true) (h₀ ++ τ) := by
  subst hlo
  simp only [sreProgress, if_true, Program.call_bind]
  by_cases hnew : i * 50 / n + p.toNat * 50 ≠ d.lastPercent
  · have hreport : ∀ answer : Option Unit, Climbs (p.toNat * 50) (i * 50 / n + p.toNat * 50)
        (τ ++ [⟨.progress (i * 50 / n + p.toNat * 50), answer⟩]) :=
      hclimbs.report (Nat.le_add_left _ _) (Nat.le_refl _)
    have hsame : ∀ answer : Option Unit,
        acceptedBlocks (τ ++ [⟨.progress (i * 50 / n + p.toNat * 50), answer⟩]) =
          acceptedBlocks τ :=
      fun answer => (acceptedBlocks_append _ _).trans (List.append_nil _)
    rw [if_pos hnew]
    refine ⟨⟨_, List.append_assoc _ _ _, hreport none, hsame none, by rintro d' ⟨⟩⟩, ?_⟩
    intro r
    refine ⟨_, List.append_assoc _ _ _, hreport (some r), hsame (some r), ?_⟩
    intro d' hd'
    cases hd'
    rfl
  · rw [if_neg hnew]
    refine ⟨τ, rfl, hclimbs, rfl, ?_⟩
    intro d' hd'
    cases hd'
    rfl

def uintnPercent (p : PartitionIndex) (blockIndex blockCount : ℕ) : UInt64 :=
  UInt64.ofNat blockIndex * 50 / UInt64.ofNat blockCount + UInt64.ofNat p.toNat * 50

theorem percent_toNat (hs : Usable s) (hi : i < s.mBlockCount) {p : PartitionIndex}
    (hp : p ≤ srePartitionB) :
    (uintnPercent p i s.mBlockCount).toNat = i * 50 / s.mBlockCount + p.toNat * 50 := by
  obtain ⟨k, hk, -, hsize⟩ := hs.blockSize
  have hcount : s.mBlockCount * 4096 ≤ 0x7FFF * size128KB := by
    refine (Nat.mul_le_mul_left _ ?_).trans hs.bounded
    omega
  have hp' : p.toNat ≤ 1 := UInt32.le_iff_toNat_le.mp hp
  have hpercent : i * 50 / s.mBlockCount < 50 := by
    apply Nat.div_lt_of_lt_mul
    exact Nat.mul_lt_mul_of_pos_right hi (by decide)
  have hbound : s.mBlockCount < 2 ^ 32 := by
    unfold size128KB at hcount
    omega
  have hwide : (2 : ℕ) ^ 32 < 2 ^ 64 := by decide
  have hi64 : (UInt64.ofNat i).toNat = i := by
    rw [UInt64.toNat_ofNat', Nat.mod_eq_of_lt (by omega)]
  have hcount64 : (UInt64.ofNat s.mBlockCount).toNat = s.mBlockCount := by
    rw [UInt64.toNat_ofNat', Nat.mod_eq_of_lt (by omega)]
  have hp64 : (UInt64.ofNat p.toNat).toNat = p.toNat := by
    rw [UInt64.toNat_ofNat', Nat.mod_eq_of_lt (by omega)]
  have hfifty : (50 : UInt64).toNat = 50 := rfl
  rw [uintnPercent, UInt64.toNat_add, UInt64.toNat_div, UInt64.toNat_mul, UInt64.toNat_mul, hi64,
    hcount64, hp64, hfifty, Nat.mod_eq_of_lt (show i * 50 < 2 ^ 64 by omega),
    Nat.mod_eq_of_lt (show p.toNat * 50 < 2 ^ 64 by omega)]
  exact Nat.mod_eq_of_lt (by omega)

/-- The natural-number percentage is the one that the code computes in UINTN: nothing wraps, for
every geometry that the constructor leaves. -/
theorem sreProgress_uintn (hs : Usable s) (hi : i < s.mBlockCount) {p : PartitionIndex}
    (hp : p ≤ srePartitionB) (d : SreFmp) :
    sreProgress d p i s.mBlockCount true =
      if (uintnPercent p i s.mBlockCount).toNat ≠ d.lastPercent then do
        ask (.progress (uintnPercent p i s.mBlockCount).toNat)
        pure { d with lastPercent := (uintnPercent p i s.mBlockCount).toNat }
      else
        pure d := by
  rw [percent_toNat hs hi hp, sreProgress, if_pos rfl]

/-- The `i` blocks that were accepted so far, one after the other. -/
structure Streamed (s : SreStorage) (i : ℕ) (τ : FirmwareTrace) (storage : SreStorage) : Prop where
  storage_eq : storage = { s with mBlockIndex := i }
  blocks_eq : acceptedBlocks τ = blockCommands s i

theorem Streamed.geometry {storage : SreStorage} (h : Streamed s i τ storage) :
    SameGeometry s storage := by
  rw [h.storage_eq]
  exact ⟨rfl, rfl⟩

theorem applyBlock_ends (hprogress : a.progress = true) (hlo : a.partitionIndex.toNat * 50 = lo)
    (hclimbs : Climbs lo (i * 50 / a.blockCount + lo) τ) (hstream : Streamed s i τ st.dev.storage) :
    Ends (fun h' x => ∃ τ', h' = h₀ ++ τ' ∧ Climbs lo (i * 50 / a.blockCount + lo) τ' ∧
        ∀ res, x = some res → SameGeometry s res.2.dev.storage ∧
          (res.1.isError = false → Streamed s (i + 1) τ' res.2.dev.storage))
      (applyBlock a st i) (h₀ ++ τ) := by
  unfold applyBlock
  rw [hprogress]
  refine (sreProgress_ends st.dev hlo a.blockCount hclimbs).bind ?_ ?_
  · intro h₁ dev ⟨τ₁, hτ₁, hclimbs₁, hsame, hdev⟩
    have hstream₁ : Streamed s i τ₁ dev.storage := by
      rw [hdev dev rfl]
      exact ⟨hstream.storage_eq, hsame.trans hstream.blocks_eq⟩
    dsimp only
    by_cases hspan : i = sreImageInfoOffset / a.blockSize ∧
        sreImageInfoOffset % a.blockSize + sizeofSreImageInfo > a.blockSize
    · rw [if_pos hspan]
      refine ⟨τ₁, hτ₁, hclimbs₁, ?_⟩
      intro res hres
      cases hres
      exact ⟨hstream₁.geometry, nofun⟩
    · rw [if_neg hspan]
      have hsilent : ∀ b, Only Silent (sreStorageWriteBlock dev.storage (some b)) :=
        fun b => (only_writeBlock dev.storage (some b)).mono silent_of_deviceCall
      refine (((hsilent _).ends_added h₁).and_meets (writeBlock_meets dev.storage _ h₁)).bind ?_ ?_
      · intro h₂ res ⟨⟨σ, hσ, hquiet⟩, hmeets⟩
        obtain ⟨hgeometry, hwritten⟩ := hmeets res rfl
        have hclimbs₂ := hclimbs₁.quiet (percentsOf_silent hquiet)
        refine ⟨τ₁ ++ σ, by rw [hσ, hτ₁, List.append_assoc], hclimbs₂, ?_⟩
        intro out hout
        cases hout
        refine ⟨hstream₁.geometry.trans hgeometry, ?_⟩
        intro hok
        obtain ⟨σ', hσ', hblock, hstorage⟩ := hwritten hok
        have hsplit : σ' = σ := List.append_cancel_left (hσ'.symm.trans hσ)
        rw [hsplit] at hblock
        constructor
        · change res.2 = _
          rw [hstorage, hstream₁.storage_eq]
        · rw [acceptedBlocks_append, hblock, hstream₁.blocks_eq, hstream₁.storage_eq,
            blockCommands_succ]
      · intro h₂ ⟨⟨σ, hσ, hquiet⟩, _⟩
        have hclimbs₂ := hclimbs₁.quiet (percentsOf_silent hquiet)
        exact ⟨τ₁ ++ σ, by rw [hσ, hτ₁, List.append_assoc], hclimbs₂, nofun⟩
  · intro h₁ ⟨τ₁, hτ₁, hclimbs₁, _⟩
    exact ⟨τ₁, hτ₁, hclimbs₁, nofun⟩

/-- The next block's report is no lower; none of the loop reaches the top. -/
theorem applyBlocks_ends (hprogress : a.progress = true) (hlo : a.partitionIndex.toNat * 50 = lo)
    (n : ℕ) : ∀ {i τ st}, i + n = a.blockCount → Climbs lo (lo + 49) τ →
      Climbs lo (i * 50 / a.blockCount + lo) τ → Streamed s i τ st.dev.storage →
      Ends (fun h' x => ∃ τ', h' = h₀ ++ τ' ∧ Climbs lo (lo + 49) τ' ∧
          ∀ res, x = some res → SameGeometry s res.2.dev.storage ∧
            (res.1.isError = false → Streamed s a.blockCount τ' res.2.dev.storage))
        (applyBlocks a (List.range' i n) st) (h₀ ++ τ) := by
  induction n with
  | zero =>
    intro i τ st hin hbelow _ hstream
    have hend : i = a.blockCount := hin
    refine ⟨τ, rfl, hbelow, ?_⟩
    intro res hres
    cases hres
    exact ⟨hstream.geometry, fun _ => hend ▸ hstream⟩
  | succ n ih =>
    intro i τ st hin _ hclimbs hstream
    have hlt : i < a.blockCount := by omega
    have hpercent : i * 50 / a.blockCount < 50 := by
      apply Nat.div_lt_of_lt_mul
      exact Nat.mul_lt_mul_of_pos_right hlt (by decide)
    have hnext : i * 50 / a.blockCount ≤ (i + 1) * 50 / a.blockCount :=
      Nat.div_le_div_right (Nat.mul_le_mul_right 50 (Nat.le_succ i))
    rw [List.range'_succ, applyBlocks]
    refine (applyBlock_ends hprogress hlo hclimbs hstream).bind ?_ ?_
    · rintro h₁ res ⟨τ₁, hτ₁, hclimbs₁, hblock⟩
      obtain ⟨hgeometry, hstream₁⟩ := hblock res rfl
      have hbelow₁ : Climbs lo (lo + 49) τ₁ := hclimbs₁.mono (by omega)
      dsimp only
      by_cases herr : res.1.isError = true
      · rw [if_pos herr]
        refine ⟨τ₁, hτ₁, hbelow₁, ?_⟩
        intro out hout
        cases hout
        refine ⟨hgeometry, ?_⟩
        intro hok
        rw [herr] at hok
        cases hok
      · rw [if_neg herr, hτ₁]
        exact ih (by omega) hbelow₁ (hclimbs₁.mono (by omega))
          (hstream₁ (Bool.eq_false_of_not_eq_true herr))
    · rintro h₁ ⟨τ₁, hτ₁, hclimbs₁, -⟩
      exact ⟨τ₁, hτ₁, hclimbs₁.mono (by omega), by rintro res ⟨⟩⟩

/-- What an apply leaves, wherever it stops. -/
def Ended (s : SreStorage) (lo : ℕ) (h₀ h' : FirmwareTrace) (x : Option (Status × SreFmp)) : Prop :=
  ∃ τ, h' = h₀ ++ τ ∧ Reported s lo τ ∧ ∀ res, x = some res → SameGeometry s res.2.storage

/-- No call of the rest reports anything. -/
theorem ended_of_silent {p : Firmware (Status × SreFmp)} (hp : Only Silent p)
    (hτ : Reported s lo τ) (hgeometry : Meets .free (fun _ res => SameGeometry s res.2.storage) p
      (h₀ ++ τ)) : Ends (Ended s lo h₀) p (h₀ ++ τ) := by
  refine ((hp.ends_added _).and_meets hgeometry).mono ?_
  intro h' x ⟨⟨σ, hσ, hquiet⟩, hpost⟩
  exact ⟨τ ++ σ, by rw [hσ, List.append_assoc], hτ.quiet (percentsOf_silent hquiet), hpost⟩

theorem writeImage_ends (hprogress : a.progress = true) (hlo : a.partitionIndex.toNat * 50 = lo)
    (hcount : a.blockCount = s.mBlockCount) (hτ : percentsOf τ = [])
    (hstream : Streamed s 0 τ st.dev.storage) :
    Ends (Ended s lo h₀) (writeImage a st) (h₀ ++ τ) := by
  have hclimbs : ∀ hi, Climbs lo hi τ := by
    intro hi
    exact Climbs.nil.quiet hτ
  unfold writeImage
  rw [List.range_eq_range']
  refine (applyBlocks_ends hprogress hlo a.blockCount (Nat.zero_add _) (hclimbs _) (hclimbs _)
    hstream).bind ?_ ?_
  · intro h₁ res ⟨τ₁, hτ₁, hclimbs₁, hloop⟩
    obtain ⟨hgeometry, hstream₁⟩ := hloop res rfl
    have hbelow : Reported s lo τ₁ := Reported.of_climbs hclimbs₁ (by omega)
    dsimp only
    by_cases herr : res.1.isError = true
    · rw [if_pos herr]
      refine ⟨τ₁, hτ₁, hbelow, ?_⟩
      intro out hout
      cases hout
      exact hgeometry
    · rw [if_neg herr, if_pos hprogress, hlo]
      have hblocks := (hstream₁ (Bool.eq_false_of_not_eq_true herr)).blocks_eq
      rw [hcount] at hblocks
      have htop := Reported.top hclimbs₁ (Nat.lt_succ_self _) hblocks
      refine ⟨⟨_, by rw [hτ₁, List.append_assoc], htop none, nofun⟩, ?_⟩
      intro r
      rw [hτ₁, List.append_assoc]
      refine ended_of_silent ?_ (htop (some r)) ?_
      · exact ((only_writeClose _).mono silent_of_deviceCall).bind fun _ => trivial
      · exact (writeClose_geometry _ _).bind fun _ _ _ hclose => hgeometry.trans hclose
  · intro h₁ ⟨τ₁, hτ₁, hclimbs₁, _⟩
    exact ⟨τ₁, hτ₁, Reported.of_climbs hclimbs₁ (by omega), nofun⟩

/-- From the open session to Done. -/
theorem session_ends (hprogress : a.progress = true) (hlo : a.partitionIndex.toNat * 50 = lo)
    (hcount : a.blockCount = s.mBlockCount) (hτ : percentsOf τ = []) {d : SreFmp}
    (hstream : Streamed s 0 τ d.storage) (chunk image : Bytes) (address pages : ℕ) :
    Ends (Ended s lo h₀) (do
      let (status, d) ← writeImage a ⟨d, chunk, image⟩
      if status.isError then
        let (_, storage) ← sreStorageWriteAbort d.storage
        ask (.freeAlignedPages address pages)
        pure (status, { d with storage })
      else
        ask (.freeAlignedPages address pages)
        pure (status, d)) (h₀ ++ τ) := by
  have hwrite : Ends (Ended s lo h₀) (writeImage a ⟨d, chunk, image⟩) (h₀ ++ τ) :=
    writeImage_ends hprogress hlo hcount hτ hstream
  refine hwrite.bind ?_ ?_
  · intro h₁ res ⟨τ₁, hτ₁, hreported, hpost⟩
    have hgeometry := hpost res rfl
    rw [hτ₁]
    dsimp only
    by_cases herr : res.1.isError = true
    · rw [if_pos herr]
      refine ended_of_silent ?_ hreported ?_
      · exact ((only_writeAbort _).mono silent_of_deviceCall).bind
          fun _ => ⟨trivial, fun _ => trivial⟩
      · exact (writeAbort_geometry _ _).bind
          fun _ _ _ habort => ⟨trivial, fun _ _ => hgeometry.trans habort⟩
    · rw [if_neg herr]
      exact ended_of_silent ⟨trivial, fun _ => trivial⟩ hreported ⟨trivial, fun _ _ => hgeometry⟩
  · intro h₁ ⟨τ₁, hτ₁, hreported, _⟩
    exact ⟨τ₁, hτ₁, hreported, nofun⟩

theorem Ended.congr {t : SreStorage} (ht : SameGeometry s t) {h' : FirmwareTrace}
    {x : Option (Status × SreFmp)} (h : Ended t lo h₀ h' x) : Ended s lo h₀ h' x := by
  obtain ⟨τ, hτ, hreported, hgeometry⟩ := h
  exact ⟨τ, hτ, hreported.congr ht, fun res hres => ht.trans (hgeometry res hres)⟩

theorem sreStorageInfo_count {info : StorageInfo} (h : sreStorageInfo s = .ok info) :
    info.blockCount = s.mBlockCount := by
  unfold sreStorageInfo at h
  by_cases hsup : s.mIsSupported = false
  · rw [if_pos hsup] at h
    cases h
  · rw [if_neg hsup] at h
    cases h
    rfl

theorem applyWim_ends (d : SreFmp) (p : PartitionIndex) (image : Bytes) (v : UInt32)
    (h : FirmwareTrace) :
    Ends (Ended d.storage (p.toNat * 50) h) (applyWimToSreStorage d p image v true) h := by
  have hquiet : ∀ {σ : FirmwareTrace}, percentsOf σ = [] → Reported d.storage (p.toNat * 50) σ := by
    intro σ hσ
    exact Reported.of_climbs (Climbs.nil.quiet hσ) (Nat.lt_add_of_pos_right (by decide))
  unfold applyWimToSreStorage
  cases hinfo : sreStorageInfo d.storage with
  | error status =>
    refine ⟨[], (List.append_nil h).symm, hquiet rfl, ?_⟩
    intro res hres
    cases hres
    exact ⟨rfl, rfl⟩
  | ok info =>
    simp only [Program.call_bind, Program.pure_eq_done]
    refine ⟨⟨_, rfl, hquiet rfl, nofun⟩, ?_⟩
    intro chunk
    cases chunk with
    | none =>
      refine ⟨_, rfl, hquiet rfl, ?_⟩
      intro res hres
      cases hres
      exact ⟨rfl, rfl⟩
    | some chunk =>
      have hsilent := (only_writeOpen d.storage p).mono silent_of_deviceCall
      have hopen := (hsilent.ends_added _).and_meets (writeOpen_meets d.storage p
        (h ++ [⟨.allocateAlignedPages (efiSizeToPages info.blockSize)
          info.blockBufferAlignment, some (some chunk)⟩]))
      have hfirst : percentsOf [⟨.allocateAlignedPages (efiSizeToPages info.blockSize)
          info.blockBufferAlignment, some (some chunk)⟩] = [] := rfl
      refine hopen.bind ?_ ?_
      · intro h₁ res ⟨⟨σ, hσ, hsilent⟩, hmeets⟩
        obtain ⟨hgeometry, hopened⟩ := hmeets res rfl
        have hnone := (percentsOf_append [_] σ).trans
          (congrArg₂ _ hfirst (percentsOf_silent hsilent))
        by_cases herr : res.1.isError = true
        · rw [if_pos herr, hσ, List.append_assoc]
          exact ended_of_silent ⟨trivial, fun _ => trivial⟩ (hquiet hnone)
            ⟨trivial, fun _ _ => hgeometry⟩
        · obtain ⟨σ', hσ', hblocks, hstorage⟩ := hopened (Bool.eq_false_of_not_eq_true herr)
          have hsplit : σ' = σ := List.append_cancel_left (hσ'.symm.trans hσ)
          have hstream : Streamed res.2 0
              ([⟨.allocateAlignedPages (efiSizeToPages info.blockSize)
                info.blockBufferAlignment, some (some chunk)⟩] ++ σ) res.2 := by
            constructor
            · rw [hstorage]
            · rw [← hsplit]
              exact hblocks
          rw [if_neg herr, hσ, List.append_assoc]
          refine (session_ends rfl rfl ?_ hnone hstream _ _ _ _).mono ?_
          · rw [hgeometry.1]
            exact sreStorageInfo_count hinfo
          · intro h' x hx
            exact hx.congr hgeometry
      · intro h₁ ⟨⟨σ, hσ, hsilent⟩, _⟩
        rw [List.append_assoc] at hσ
        have hnone := (percentsOf_append [_] σ).trans
          (congrArg₂ _ hfirst (percentsOf_silent hsilent))
        exact ⟨_, hσ, hquiet hnone, nofun⟩

section Call

variable {env : FirmwareEnv} {d : SreFmp} {image : Option Bytes} {bytes : Bytes} {v : UInt32}
variable {outputsNonNull : Bool} {h : FirmwareTrace}

theorem only_setImage_refused (hnp : ¬Passes d.storage image outputsNonNull) :
    Only Silent (fmpDeviceSetImageWithStatus d image true v outputsNonNull) := by
  unfold fmpDeviceSetImageWithStatus
  cases image with
  | none => trivial
  | some bytes =>
    dsimp only
    by_cases h0 : bytes.length = 0 ∨ outputsNonNull = false
    · rw [if_pos h0]
      trivial
    · obtain ⟨hne, hnonNull⟩ := not_or.mp h0
      have houtputs : outputsNonNull = true := Bool.eq_true_of_not_eq_false hnonNull
      rw [if_neg h0]
      cases check_refused hne (houtputs ▸ hnp) with
      | inl hunchecked =>
        simp only [hunchecked.2, efiUnsupported, Status.isError, if_true]
        trivial
      | inr hunfit =>
        have hlas : ¬lastAttemptStatusErrorInvalidFormat = lastAttemptStatusSuccess := by decide
        simp only [hunfit.2, isError_success, Bool.false_eq_true, if_false, Option.getD_some, hlas,
          false_and]
        exact ⟨trivial, fun _ => trivial⟩

/-- What a call does after the applies. -/
def recordAttempt (v : UInt32) (x : UInt32 × SreFmp) : Firmware SetImageResult := do
  let _ ← ask (.gRTSetVariable .lastAttemptStatus (lasVariableData x.1 v))
  pure ⟨if x.1 = lastAttemptStatusSuccess then .success else efiAborted, some x.1, x.2⟩

theorem only_recordAttempt (x : UInt32 × SreFmp) : Only Silent (recordAttempt v x) :=
  ⟨trivial, fun _ => trivial⟩

theorem setImage_passes {progress : Bool} (hp : Passes d.storage (some bytes) outputsNonNull) :
    fmpDeviceSetImageWithStatus d (some bytes) progress v outputsNonNull =
      applyBoth d bytes v progress >>= recordAttempt v := by
  obtain ⟨_, hb, hne, houtputs, -, -⟩ := passes_iff.mp hp
  cases hb
  subst houtputs
  have h0 : ¬(bytes.length = 0 ∨ (true : Bool) = false) := by
    intro h0
    cases h0 with
    | inl hlength => exact hne hlength
    | inr hnull => cases hnull
  have hcheck : fmpDeviceCheckImageWithStatus d.storage (some bytes) true = _ := hp
  unfold fmpDeviceSetImageWithStatus
  dsimp only
  rw [if_neg h0]
  simp only [hcheck, isError_success, Bool.false_eq_true, if_false, Option.getD_some,
    ne_eq, not_true_eq_false, and_false, if_true]
  rfl

inductive Applies (env : FirmwareEnv) (d : SreFmp) (image : Option Bytes) (v : UInt32)
    (outputsNonNull : Bool) (h : FirmwareTrace) : FirmwareTrace → FirmwareTrace → Prop where
  | refused : ¬Passes d.storage image outputsNonNull →
      Applies env d image v outputsNonNull h [] []
  /-- A call of the first apply never came back. -/
  | first {bytes τA} : image = some bytes →
      (applyWimToSreStorage d srePartitionA bytes v true).run env h = (h ++ τA, none) →
      Applies env d image v outputsNonNull h τA []
  | both {bytes τA τB statusA dA x} : image = some bytes →
      (applyWimToSreStorage d srePartitionA bytes v true).run env h =
        (h ++ τA, some (statusA, dA)) →
      (applyWimToSreStorage dA srePartitionB bytes v true).run env (h ++ τA) =
        (h ++ τA ++ τB, x) →
      Applies env d image v outputsNonNull h τA τB

/-- A call is its applies, and nothing it does after them is a report. -/
theorem setImage_applies (env : FirmwareEnv) (d : SreFmp) (image : Option Bytes) (v : UInt32)
    (outputsNonNull : Bool) (h : FirmwareTrace) :
    ∃ τA τB τ, ((fmpDeviceSetImageWithStatus d image true v outputsNonNull).run env h).1 =
        h ++ τA ++ τB ++ τ ∧
      Applies env d image v outputsNonNull h τA τB ∧ percentsOf τ = [] := by
  by_cases hp : Passes d.storage image outputsNonNull
  · obtain ⟨bytes, himage, -⟩ := passes_iff.mp hp
    subst himage
    rw [setImage_passes hp]
    obtain ⟨τA, hτA⟩ := Program.run_prefix env h (applyWimToSreStorage d srePartitionA bytes v true)
    cases hA : ((applyWimToSreStorage d srePartitionA bytes v true).run env h).2 with
    | none =>
      have hrunA : (applyWimToSreStorage d srePartitionA bytes v true).run env h =
          (h ++ τA, none) := Prod.ext hτA.symm hA
      have hboth : (applyBoth d bytes v true).run env h = (h ++ τA, none) :=
        Program.run_bind_none env h hrunA
      refine ⟨τA, [], [], ?_, .first rfl hrunA, rfl⟩
      rw [Program.run_bind_none env h hboth, List.append_nil, List.append_nil]
    | some res =>
      have hrunA : (applyWimToSreStorage d srePartitionA bytes v true).run env h =
          (h ++ τA, some (res.1, res.2)) := Prod.ext hτA.symm hA
      obtain ⟨τB, hτB⟩ := Program.run_prefix env (h ++ τA)
        (applyWimToSreStorage res.2 srePartitionB bytes v true)
      cases hB : ((applyWimToSreStorage res.2 srePartitionB bytes v true).run env (h ++ τA)).2 with
      | none =>
        have hrunB : (applyWimToSreStorage res.2 srePartitionB bytes v true).run env (h ++ τA) =
            (h ++ τA ++ τB, none) := Prod.ext hτB.symm hB
        have hboth : (applyBoth d bytes v true).run env h = (h ++ τA ++ τB, none) :=
          (Program.run_bind_some env h hrunA).trans (Program.run_bind_none env _ hrunB)
        refine ⟨τA, τB, [], ?_, .both rfl hrunA hrunB, rfl⟩
        rw [Program.run_bind_none env h hboth, List.append_nil]
      | some resB =>
        have hrunB : (applyWimToSreStorage res.2 srePartitionB bytes v true).run env (h ++ τA) =
            (h ++ τA ++ τB, some resB) := Prod.ext hτB.symm hB
        obtain ⟨x, hboth⟩ : ∃ x, (applyBoth d bytes v true).run env h =
            (h ++ τA ++ τB, some x) := by
          unfold applyBoth
          rw [Program.run_bind_some env h hrunA]
          dsimp only
          rw [Program.run_bind_some env _ hrunB]
          exact ⟨_, rfl⟩
        obtain ⟨τ, hτ, hsilent⟩ := (only_recordAttempt x).run env (h ++ τA ++ τB)
        refine ⟨τA, τB, τ, ?_, .both rfl hrunA hrunB, percentsOf_silent hsilent⟩
        rw [Program.run_bind_some env h hboth]
        exact hτ
  · obtain ⟨τ, hτ, hsilent⟩ := (only_setImage_refused hp).run env h
    refine ⟨[], [], τ, ?_, .refused hp, percentsOf_silent hsilent⟩
    rw [List.append_nil, List.append_nil]
    exact hτ

theorem reported_of_run {p : PartitionIndex} {τ : FirmwareTrace} {x : Option (Status × SreFmp)}
    (hrun : (applyWimToSreStorage d p bytes v true).run env h = (h ++ τ, x)) :
    Reported d.storage (p.toNat * 50) τ ∧
      ∀ res, x = some res → SameGeometry d.storage res.2.storage := by
  have hended := (applyWim_ends d p bytes v h).sound env
  rw [hrun] at hended
  obtain ⟨σ, hσ, hreported, hgeometry⟩ := hended
  rw [List.append_cancel_left hσ]
  exact ⟨hreported, hgeometry⟩

theorem Applies.reported {τA τB : FirmwareTrace}
    (happlies : Applies env d image v outputsNonNull h τA τB) :
    Reported d.storage 0 τA ∧ Reported d.storage 50 τB := by
  have hnil : ∀ lo, Reported d.storage lo [] := fun lo =>
    Reported.of_climbs Climbs.nil (Nat.lt_add_of_pos_right (by decide))
  cases happlies with
  | refused => exact ⟨hnil 0, hnil 50⟩
  | first _ hA => exact ⟨(reported_of_run hA).1, hnil 50⟩
  | both _ hA hB =>
    obtain ⟨hreportedA, hgeometry⟩ := reported_of_run hA
    exact ⟨hreportedA, (reported_of_run hB).1.congr (hgeometry _ rfl)⟩

/-- Whatever fails, and whatever LastPercent holds from earlier calls. -/
theorem update_progress_monotone (env : FirmwareEnv) (d : SreFmp) (image : Option Bytes)
    (v : UInt32) (outputsNonNull : Bool) (h : FirmwareTrace) :
    ∃ τA τB τ, ((fmpDeviceSetImageWithStatus d image true v outputsNonNull).run env h).1 =
        h ++ τA ++ τB ++ τ ∧
      Applies env d image v outputsNonNull h τA τB ∧ percentsOf τ = [] ∧
      (percentsOf (τA ++ τB)).Pairwise (· ≤ ·) ∧
      (∀ x ∈ percentsOf τA, x ≤ 50) ∧ (∀ x ∈ percentsOf τB, 50 ≤ x ∧ x ≤ 100) ∧
      ∀ mid a post, τA ++ τB = mid ++ ⟨.progress 100, a⟩ :: post →
        ∃ σ, mid = τA ++ σ ∧
          acceptedBlocks σ = blockCommands d.storage d.storage.mBlockCount := by
  obtain ⟨τA, τB, τ, hrun, happlies, hquiet⟩ := setImage_applies env d image v outputsNonNull h
  obtain ⟨hA, hB⟩ := happlies.reported
  have hlow : ∀ x ∈ percentsOf τA, x ≤ 50 := fun x hx => (hA.bounds x hx).2
  refine ⟨τA, τB, τ, hrun, happlies, hquiet, ?_, hlow, hB.bounds, ?_⟩
  · rw [percentsOf_append, List.pairwise_append]
    refine ⟨hA.sorted, hB.sorted, ?_⟩
    intro x hx y hy
    exact (hlow x hx).trans (hB.bounds y hy).1
  · intro mid a post hsplit
    cases List.append_eq_append_iff.mp hsplit with
    | inl hinB =>
      obtain ⟨σ, hmid, hτB⟩ := hinB
      exact ⟨σ, hmid, hB.full σ a post hτB⟩
    | inr hinA =>
      obtain ⟨σ, hτA, hrest⟩ := hinA
      cases σ with
      | nil =>
        rw [List.append_nil] at hτA
        have hτB : τB = [] ++ ⟨.progress 100, a⟩ :: post := hrest.symm
        exact ⟨[], by rw [hτA, List.append_nil], hB.full [] a post hτB⟩
      | cons e σ =>
        obtain ⟨he, -⟩ := List.cons_eq_cons.mp hrest
        rw [← he] at hτA
        have hle := hlow 100 (mem_percentsOf hτA)
        omega

end Call

end SreFmpProgress
