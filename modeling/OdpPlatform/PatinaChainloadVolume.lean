import OdpPlatform.InteractionAnswers
import OdpPlatform.PatinaDevicePathSize

/-! # The volume and the path of chainload_from_ramdisk

A file path appended to a measured device path, and the choice of the volume below the RAM disk. -/
namespace PatinaChainloadVolume

open ByteBuffer DevicePathNodes DevicePathChain InteractionProgram FirmwareServices
open InteractionAnswers PatinaBootHelpers PatinaBootOptions PatinaBpRecovery PatinaDevicePathSize

/-- A path in memory is its nodes and the EndEntire behind them. -/
theorem split_pathAt {m : Memory} {pos : ℕ} {p : DevicePath} (hp : PathAt m pos p) :
    ∃ nodes, p = nodes ++ [endEntire] ∧ ∀ n ∈ nodes, ¬IsEndEntire n ∧ Node.Fits n := by
  obtain ⟨nodes, rfl⟩ := List.getLast?_eq_some_iff.mp hp.last
  exact ⟨nodes, rfl, (isChain_append isChain_endEntire).mp hp.chain⟩

theorem length_asBytes_endEntire (nodes : DevicePath) :
    (asBytes (nodes ++ [endEntire])).length = (asBytes nodes).length + 4 := by
  rw [asBytes_append, List.length_append]
  rfl

theorem readMemory_of_holds {m : Memory} {b : Bytes} (hm : Holds m 0 b) :
    readMemory m b.length = b := by
  apply List.ext_getElem
  · rw [readMemory, List.length_map, List.length_range]
  · intro i hi hi'
    have hbyte := hm i hi'
    rw [Nat.zero_add, List.getD_eq_getElem _ _ hi'] at hbyte
    simp only [readMemory, List.getElem_map, List.getElem_range]
    exact hbyte

theorem length_utf16LeBytes (us : List ℕ) : (utf16LeBytes us).length = us.length * 2 := by
  induction us with
  | nil => rfl
  | cons u us ih =>
    rw [utf16LeBytes, List.flatMap_cons, List.length_append]
    change 2 + (utf16LeBytes us).length = _
    rw [ih, List.length_cons]
    omega

/-- The nodes that are appended. -/
def appendedNodes (path : List Char) : DevicePath :=
  if (mediaFilePathNode path).bytes.length > 0xFFFF then [endEntire] else [mediaFilePathNode path, endEntire]

theorem buildFilePathNode_eq (path : List Char) :
    buildFilePathNode path = asBytes (appendedNodes path) := by
  have hlength : (mediaFilePathNode path).bytes.length =
      nodeHdrBytes + (encodeUtf16 path ++ [0]).length * 2 := by
    rw [length_bytes, mediaFilePathNode, length_utf16LeBytes]
  rw [buildFilePathNode, appendedNodes, hlength]
  split
  · rfl
  · rw [asBytes_cons, Node.bytes, ← length_bytes, hlength]
    rfl

theorem isChain_appendedNodes (path : List Char) : IsChain (appendedNodes path) := by
  rw [appendedNodes]
  split
  · exact isChain_endEntire
  next hfits =>
    rw [length_bytes] at hfits
    apply IsChain.cons _ _ isChain_endEntire
    · exact fun hend => absurd hend.1 (show typeMedia ≠ typeEnd by decide)
    · rw [Node.Fits]
      omega

theorem getLast?_appendedNodes (nodes : DevicePath) (path : List Char) :
    (nodes ++ appendedNodes path).getLast? = some endEntire := by
  rw [appendedNodes]
  split
  · rw [List.getLast?_append]
    rfl
  · rw [List.getLast?_append]
    rfl

structure Appends (m : Memory) (n : ℕ) (path : List Char) (nodes : DevicePath) (bytes : Bytes) :
    Prop where
  before : PathAt m 0 (nodes ++ [endEntire])
  size : (asBytes (nodes ++ [endEntire])).length = n
  bytes_eq : bytes = asBytes (nodes ++ appendedNodes path)
  chain : IsChain (nodes ++ appendedNodes path)
  length_field : headLength (buildFilePathNode path) = (headNode (buildFilePathNode path)).bytes.length
  measured : bytes.length ≤ devicePathMaxBytes →
    ∀ m', Holds m' 0 bytes → devicePathSize m' = bytes.length

/-- The bytes that both call sites put together. -/
theorem append_file_path {m : Memory} {n : ℕ} (hsize : devicePathSize m = n) (hn : 0 < n)
    (path : List Char) :
    ∃ nodes, Appends m n path nodes (readMemory m (n - 4) ++ buildFilePathNode path) := by
  obtain ⟨p, hp, hlength, -⟩ := (devicePathSize_eq_iff m hn).mp hsize
  obtain ⟨nodes, rfl, hnodes⟩ := split_pathAt hp
  have hchain := (isChain_append (isChain_appendedNodes path)).mpr hnodes
  have hfront : readMemory m (n - 4) = asBytes nodes := by
    have hlen : n - 4 = (asBytes nodes).length := by
      rw [length_asBytes_endEntire] at hlength
      omega
    have hholds := hp.holds
    rw [asBytes_append, holds_append] at hholds
    rw [hlen, readMemory_of_holds hholds.1]
  have hbytes : readMemory m (n - 4) ++ buildFilePathNode path =
      asBytes (nodes ++ appendedNodes path) := by
    rw [hfront, buildFilePathNode_eq, asBytes_append]
  refine ⟨nodes, hp, hlength, hbytes, hchain, ?_, ?_⟩
  · rw [buildFilePathNode_eq]
    obtain ⟨hfour, hin, -⟩ := chain_head (isChain_appendedNodes path) (List.append_nil _).symm
    obtain ⟨hfits, hsplit⟩ := bytes_headNode hfour hin
    nth_rewrite 1 [hsplit]
    exact headLength_bytes hfits _
  · rw [hbytes]
    intro hcap m' hm'
    have hpath : PathAt m' 0 (nodes ++ appendedNodes path) :=
      ⟨hchain, getLast?_appendedNodes nodes path, hm'⟩
    have hpos : 0 < (asBytes (nodes ++ appendedNodes path)).length := by
      obtain ⟨hfour, hle⟩ := hpath.length_le
      unfold nodeHdrBytes at hfour
      omega
    exact (devicePathSize_eq_iff m' hpos).mpr ⟨_, hpath, rfl, hcap⟩

theorem append_file_path_acpiPath :
    devicePathSize (memoryOf acpiPath) = 16 ∧
      ∃ nodes, Appends (memoryOf acpiPath) 16 "\\boot".toList nodes
        (readMemory (memoryOf acpiPath) (16 - 4) ++ buildFilePathNode "\\boot".toList) := by
  have hsize : devicePathSize (memoryOf acpiPath) = 16 := by decide
  exact ⟨hsize, append_file_path hsize (by decide) _⟩

/-- Nodes whose bytes a chain starts with are the nodes that it starts with. -/
theorem nodes_prefix {nodes : DevicePath} : ∀ {q : DevicePath} {rest : Bytes},
    (∀ n ∈ nodes, ¬IsEndEntire n ∧ Node.Fits n) → IsChain q → asBytes q = asBytes nodes ++ rest →
      nodes <+: q := by
  induction nodes with
  | nil => exact fun _ _ _ => List.nil_prefix
  | cons n nodes ih =>
    intro q rest hnodes hq hbytes
    obtain ⟨⟨hend, hfits⟩, htail⟩ := List.forall_mem_cons.mp hnodes
    rw [asBytes_cons, List.append_assoc] at hbytes
    have hhead := headNode_bytes hfits (asBytes nodes ++ rest)
    rw [← hbytes] at hhead
    cases hq with
    | @last m hlast hm =>
      rw [asBytes_cons, headNode_bytes hm] at hhead
      exact absurd (hhead ▸ hlast) hend
    | @cons m q hlast hm hq =>
      rw [asBytes_cons, headNode_bytes hm] at hhead
      subst hhead
      rw [asBytes_cons] at hbytes
      exact List.cons_prefix_cons.mpr ⟨rfl, ih htail hq (List.append_cancel_left hbytes)⟩

/-- The device path at the start of the memory, as far as `device_path_size` measures paths. -/
structure Measured (m : Memory) (q : DevicePath) : Prop where
  path : PathAt m 0 q
  capped : (asBytes q).length ≤ devicePathMaxBytes

theorem Measured.size {m : Memory} {q : DevicePath} (hq : Measured m q) :
    devicePathSize m = (asBytes q).length := by
  obtain ⟨hfour, hle⟩ := hq.path.length_le
  unfold nodeHdrBytes at hfour
  exact (devicePathSize_eq_iff m (by omega)).mpr ⟨q, hq.path, rfl, hq.capped⟩

theorem measured_of_size {m : Memory} (hpos : 0 < devicePathSize m) : ∃ q, Measured m q := by
  obtain ⟨q, hq, hlength, hcap⟩ := (devicePathSize_eq_iff m hpos).mp rfl
  exact ⟨q, hq, hlength ▸ hcap⟩

theorem Measured.unique {m : Memory} {p q : DevicePath} (hp : Measured m p) (hq : Measured m q) :
    p = q := hp.path.unique hq.path

theorem Measured.four_le {m : Memory} {q : DevicePath} (hq : Measured m q) :
    4 ≤ devicePathSize m := by
  obtain ⟨hfour, hle⟩ := hq.path.length_le
  rw [hq.size]
  exact hfour.trans hle

/-- What is left of a measured path without its EndEntire. -/
theorem Measured.payload {m : Memory} {q : DevicePath} (hq : Measured m q) :
    readMemory m (devicePathSize m - 4) = asBytes q.dropLast := by
  obtain ⟨before, rfl, -⟩ := split_pathAt hq.path
  have hholds := hq.path.holds
  rw [asBytes_append, holds_append] at hholds
  rw [hq.size, length_asBytes_endEntire, Nat.add_sub_cancel, readMemory_of_holds hholds.1,
    List.dropLast_concat]

theorem readMemory_eq_iff {m : Memory} {b : Bytes} :
    readMemory m b.length = b ↔ Holds m 0 b := by
  constructor
  · intro hread i hi
    have hbyte : b.getD i 0 = (readMemory m b.length).getD i 0 := by rw [hread]
    rw [Nat.zero_add, hbyte, readMemory, List.getD_eq_getElem _ _ (by simpa using hi)]
    simp
  · exact readMemory_of_holds

/-- What the code compares is whether the nodes are those that the path starts with. -/
theorem prefix_bytes_iff {nodes : DevicePath} {v : Memory} (hne : nodes ≠ [])
    (hnodes : ∀ n ∈ nodes, ¬IsEndEntire n ∧ Node.Fits n) :
    (¬devicePathSize v < (asBytes nodes).length ∧
        readMemory v (asBytes nodes).length = asBytes nodes) ↔
      ∃ q, Measured v q ∧ nodes <+: q := by
  constructor
  · rintro ⟨hsize, hread⟩
    have hfour := length_le_asBytes nodes
    have hone := List.length_pos_iff.mpr hne
    unfold nodeHdrBytes at hfour
    obtain ⟨q, hq⟩ := measured_of_size (m := v) (by omega)
    rw [hq.size] at hsize
    obtain ⟨rest, hrest⟩ :=
      prefix_of_holds (readMemory_eq_iff.mp hread) hq.path.holds (by omega)
    exact ⟨q, hq, nodes_prefix hnodes hq.path.chain hrest⟩
  · rintro ⟨q, hq, rest, rfl⟩
    rw [hq.size, asBytes_append, List.length_append]
    have hholds := hq.path.holds
    rw [asBytes_append, holds_append] at hholds
    exact ⟨by omega, readMemory_of_holds hholds.1⟩

theorem run_candidateMatches (parentPrefix : Bytes) (v : Memory) :
    ∃ τ matched, (candidateMatches parentPrefix (devicePathSize v)).run (sliceEnv v) [] =
        (τ, some matched) ∧
      (∀ e ∈ τ, e.call.length ≤ devicePathSize v) ∧
      (matched = true ↔ ¬devicePathSize v < parentPrefix.length ∧
        readMemory v parentPrefix.length = parentPrefix) := by
  rw [candidateMatches]
  split
  next hsize =>
    exact ⟨[], false, rfl, nofun, by simp [hsize]⟩
  next hsize =>
    rw [Program.run_ask_some _ _ _ rfl]
    refine ⟨_, _, rfl, List.forall_mem_singleton.mpr (Nat.le_of_not_lt hsize), ?_⟩
    rw [beq_iff_eq]
    exact ⟨fun hread => ⟨hsize, hread⟩, fun hread => hread.2⟩

/-- A candidate matches where its nodes start with those of the RAM disk. -/
theorem candidateMatches_iff {nodes : DevicePath} {v : Memory} (hne : nodes ≠ [])
    (hnodes : ∀ n ∈ nodes, ¬IsEndEntire n ∧ Node.Fits n) :
    ((candidateMatches (asBytes nodes) (devicePathSize v)).run (sliceEnv v) []).2 = some true ↔
      ∃ q, Measured v q ∧ nodes <+: q := by
  obtain ⟨τ, matched, hrun, -, hmatched⟩ := run_candidateMatches (asBytes nodes) v
  rw [hrun, ← prefix_bytes_iff hne hnodes, ← hmatched, Option.some.injEq]

section Choice

variable (paths : Handle → Except Status (Option Memory)) (nodes : DevicePath)

/-- The handle has a device path that is well formed and starts with the nodes. -/
def Descends (g : Handle) (v : Memory) (q : DevicePath) : Prop :=
  paths g = .ok (some v) ∧ Measured v q ∧ nodes <+: q

def FirstDescendant (handles : List Handle) (g : Handle) (v : Memory) (q : DevicePath) : Prop :=
  ∃ pre post, handles = pre ++ g :: post ∧ Descends paths nodes g v q ∧
    ∀ g' ∈ pre, ∀ v' q', ¬Descends paths nodes g' v' q'

structure Offers (env : FirmwareEnv) (parentDp : Memory) (handles : List Handle) : Prop where
  located : ∃ ram, ∀ h, env h (.locateDevicePath parentDp) = some (.ok ram)
  connected : ∀ h ram, ∃ r, env h (.connectController ram true) = some r
  listed : ∀ h, env h (.locateHandleBuffer (.byProtocol .simpleFileSystem)) = some (.ok handles)
  answered : ∀ h g, env h (.handleProtocolUncheckedDevicePath g) = some (paths g)

end Choice

variable {paths : Handle → Except Status (Option Memory)} {nodes : DevicePath}

theorem FirstDescendant.descends {handles : List Handle} {g : Handle} {v : Memory} {q : DevicePath}
    (hg : FirstDescendant paths nodes handles g v q) : Descends paths nodes g v q := by
  obtain ⟨pre, post, -, hdescends, -⟩ := hg
  exact hdescends

theorem FirstDescendant.mem {handles : List Handle} {g : Handle} {v : Memory} {q : DevicePath}
    (hg : FirstDescendant paths nodes handles g v q) : g ∈ handles := by
  obtain ⟨pre, post, rfl, -⟩ := hg
  exact List.mem_append_right _ List.mem_cons_self

theorem FirstDescendant.head {g : Handle} {v : Memory} {q : DevicePath} {rest : List Handle}
    (hg : Descends paths nodes g v q) : FirstDescendant paths nodes (g :: rest) g v q :=
  ⟨[], rest, rfl, hg, nofun⟩

theorem FirstDescendant.cons {g g' : Handle} {v : Memory} {q : DevicePath} {rest : List Handle}
    (hg : FirstDescendant paths nodes rest g v q) (hno : ∀ v' q', ¬Descends paths nodes g' v' q') :
    FirstDescendant paths nodes (g' :: rest) g v q := by
  obtain ⟨pre, post, rfl, hdescends, hpre⟩ := hg
  exact ⟨g' :: pre, post, rfl, hdescends, List.forall_mem_cons.mpr ⟨hno, hpre⟩⟩

theorem FirstDescendant.unique {handles : List Handle} {g g' : Handle} {v v' : Memory}
    {q q' : DevicePath} (hg : FirstDescendant paths nodes handles g v q)
    (hg' : FirstDescendant paths nodes handles g' v' q') : v = v' ∧ q = q' := by
  obtain ⟨pre, post, hsplit, hdescends, hpre⟩ := hg
  obtain ⟨pre', post', hsplit', hdescends', hpre'⟩ := hg'
  have hsame : g = g' := by
    rcases List.append_eq_append_iff.mp (hsplit.symm.trans hsplit') with
      ⟨mid, hmid, hrest⟩ | ⟨mid, hmid, hrest⟩
    · cases mid with
      | nil => exact (List.cons.inj hrest).1
      | cons x mid =>
        obtain ⟨rfl, -⟩ := List.cons.inj hrest
        exact absurd hdescends (hpre' g (by rw [hmid]; simp) v q)
    · cases mid with
      | nil => exact (List.cons.inj hrest).1.symm
      | cons x mid =>
        obtain ⟨rfl, -⟩ := List.cons.inj hrest
        exact absurd hdescends' (hpre g' (by rw [hmid]; simp) v' q')
  subst hsame
  have hv := hdescends.1.symm.trans hdescends'.1
  cases hv
  exact ⟨rfl, hdescends.2.1.unique hdescends'.2.1⟩

def SearchCall : Call → Prop
  | .locateDevicePath _ | .connectController _ _ | .locateHandleBuffer _
  | .handleProtocolUncheckedDevicePath _ => True
  | _ => False

section Search

variable {env : FirmwareEnv}

theorem findDescendant_take (hne : nodes ≠ []) (hnodes : ∀ n ∈ nodes, ¬IsEndEntire n ∧ Node.Fits n)
    {g : Handle} {v : Memory} {q : DevicePath} {h : FirmwareTrace}
    (hans : env h (.handleProtocolUncheckedDevicePath g) = some (paths g))
    (hg : Descends paths nodes g v q) (rest : List Handle) :
    (findDescendant (asBytes nodes) (g :: rest)).run env h =
      (h ++ [⟨.handleProtocolUncheckedDevicePath g, some (paths g)⟩], some (some v)) := by
  rw [findDescendant, ask, Program.call_bind, Program.run_ask_some env h _ hans, hg.1]
  dsimp only
  rw [if_pos ((candidateMatches_iff hne hnodes).mpr ⟨q, hg.2⟩)]
  rfl

theorem findDescendant_skip (hne : nodes ≠ []) (hnodes : ∀ n ∈ nodes, ¬IsEndEntire n ∧ Node.Fits n)
    {g : Handle} {h : FirmwareTrace}
    (hans : env h (.handleProtocolUncheckedDevicePath g) = some (paths g))
    (hg : ∀ v q, ¬Descends paths nodes g v q) (rest : List Handle) :
    (findDescendant (asBytes nodes) (g :: rest)).run env h =
      (findDescendant (asBytes nodes) rest).run env
        (h ++ [⟨.handleProtocolUncheckedDevicePath g, some (paths g)⟩]) := by
  rw [findDescendant, ask, Program.call_bind, Program.run_ask_some env h _ hans]
  cases hpath : paths g with
  | error s => rfl
  | ok path =>
    cases path with
    | none => rfl
    | some v =>
      have hno : ¬∃ q, Measured v q ∧ nodes <+: q := fun ⟨q, hq⟩ => hg v q ⟨hpath, hq⟩
      dsimp only
      rw [if_neg ((candidateMatches_iff hne hnodes).not.mpr hno)]

/-- The search ends with the first descendant, or without one where there is none. -/
theorem run_findDescendant (hne : nodes ≠ []) (hnodes : ∀ n ∈ nodes, ¬IsEndEntire n ∧ Node.Fits n)
    (hans : ∀ h g, env h (.handleProtocolUncheckedDevicePath g) = some (paths g))
    (handles : List Handle) : ∀ h : FirmwareTrace, ∃ τ pick, (∀ e ∈ τ, SearchCall e.call) ∧
      (findDescendant (asBytes nodes) handles).run env h = (h ++ τ, some pick) ∧
      ((∃ g v q, pick = some v ∧ FirstDescendant paths nodes handles g v q) ∨
        (pick = none ∧ ∀ g ∈ handles, ∀ v q, ¬Descends paths nodes g v q)) := by
  induction handles with
  | nil =>
    intro h
    exact ⟨[], none, List.forall_mem_nil _, by rw [List.append_nil]; rfl,
      .inr ⟨rfl, List.forall_mem_nil _⟩⟩
  | cons g rest ih =>
    intro h
    by_cases hg : ∃ v q, Descends paths nodes g v q
    · obtain ⟨v, q, hg⟩ := hg
      refine ⟨_, some v, ?_, findDescendant_take hne hnodes (hans h g) hg rest,
        .inl ⟨g, v, q, rfl, .head hg⟩⟩
      exact List.forall_mem_singleton.mpr trivial
    · simp only [not_exists] at hg
      obtain ⟨τ, pick, hτ, hrun, hpick⟩ :=
        ih (h ++ [⟨.handleProtocolUncheckedDevicePath g, some (paths g)⟩])
      refine ⟨⟨.handleProtocolUncheckedDevicePath g, some (paths g)⟩ :: τ, pick, ?_, ?_, ?_⟩
      · exact List.forall_mem_cons.mpr ⟨trivial, hτ⟩
      · rw [findDescendant_skip hne hnodes (hans h g) hg, hrun, List.append_assoc]
        rfl
      · rcases hpick with ⟨g', v, q, hv, hfirst⟩ | ⟨hnone, hall⟩
        · exact .inl ⟨g', v, q, hv, hfirst.cons hg⟩
        · exact .inr ⟨hnone, List.forall_mem_cons.mpr ⟨hg, hall⟩⟩

end Search

/-- A well-formed path with a node for the RAM disk. -/
structure RamDiskPath (m : Memory) (nodes : DevicePath) : Prop where
  measured : Measured m (nodes ++ [endEntire])
  named : nodes ≠ []

theorem RamDiskPath.fit {m : Memory} (hp : RamDiskPath m nodes) :
    ∀ n ∈ nodes, ¬IsEndEntire n ∧ Node.Fits n :=
  (isChain_append isChain_endEntire).mp hp.measured.path.chain

theorem RamDiskPath.payload {m : Memory} (hp : RamDiskPath m nodes) :
    readMemory m (devicePathSize m - 4) = asBytes nodes := by
  rw [hp.measured.payload, List.dropLast_concat]

theorem yields_pick {env : FirmwareEnv} {parentDp : Memory} {handles : List Handle}
    (hp : RamDiskPath parentDp nodes)
    (ho : Offers paths env parentDp handles) :
    ∃ pick,
      Yields env (findDescendant (readMemory parentDp (devicePathSize parentDp - 4)) handles)
          pick ∧
        ∀ v, pick = some v ↔ ∃ g q, FirstDescendant paths nodes handles g v q := by
  rw [hp.payload]
  by_cases hex : ∃ g v q, FirstDescendant paths nodes handles g v q
  · obtain ⟨g, v, q, hfirst⟩ := hex
    refine ⟨some v, fun h => ?_, fun w => ⟨?_, ?_⟩⟩
    · obtain ⟨τ, pick, -, hrun, ⟨g', v', q', rfl, hfirst'⟩ | ⟨-, hall⟩⟩ :=
        run_findDescendant hp.named hp.fit ho.answered handles h
      · rw [(hfirst.unique hfirst').1]
        exact ⟨_, hrun⟩
      · exact absurd hfirst.descends (hall g hfirst.mem v q)
    · rintro ⟨⟩
      exact ⟨g, q, hfirst⟩
    · rintro ⟨g', q', hfirst'⟩
      rw [(hfirst.unique hfirst').1]
  · refine ⟨none, fun h => ?_, fun w => ⟨nofun, fun ⟨g, q, hfirst⟩ => (hex ⟨g, w, q, hfirst⟩).elim⟩⟩
    obtain ⟨τ, pick, -, hrun, ⟨g', v', q', -, hfirst'⟩ | ⟨rfl, -⟩⟩ :=
      run_findDescendant hp.named hp.fit ho.answered handles h
    · exact absurd ⟨g', v', q', hfirst'⟩ hex
    · exact ⟨_, hrun⟩

section Dispatch

variable [PatinaDevicePath] (arch : TargetArch) (lockedBoot : LockedBoot) (imageHandle : Handle)

def bootVolume (q : DevicePath) : FirmwareE Unit :=
  let fullPath := asBytes (q.dropLast ++ appendedNodes (defaultBootFilePath arch))
  match PatinaDevicePath.tryFromPtr (memoryOf fullPath) with
  | none => throw .invalidParameter
  | some devicePath => lockedBoot.bootFromDevicePath imageHandle devicePath

variable {env : FirmwareEnv} {parentDp : Memory} {handles : List Handle}

/-- Up to the choice the firmware is only asked; then the chosen volume is booted. -/
theorem run_chainload (hp : RamDiskPath parentDp nodes) (ho : Offers paths env parentDp handles)
    (h : FirmwareTrace) : ∃ τ, (∀ e ∈ τ, SearchCall e.call) ∧
      ((∃ g v q, FirstDescendant paths nodes handles g v q ∧
          (chainloadFromRamdisk arch lockedBoot imageHandle parentDp).run.run env h =
            (bootVolume arch lockedBoot imageHandle q).run.run env (h ++ τ)) ∨
        ((∀ g ∈ handles, ∀ v q, ¬Descends paths nodes g v q) ∧
          (chainloadFromRamdisk arch lockedBoot imageHandle parentDp).run.run env h =
            (h ++ τ, some (.error .notFound)))) := by
  obtain ⟨ram, hlocated⟩ := ho.located
  obtain ⟨connected, hconnected⟩ :=
    ho.connected (h ++ [⟨.locateDevicePath parentDp, some (.ok ram)⟩]) ram
  have hfour : ¬devicePathSize parentDp < 4 := Nat.not_lt.mpr hp.measured.four_le
  obtain ⟨τ, pick, hτ, hrun, hpick⟩ := run_findDescendant hp.named hp.fit ho.answered handles
    (h ++ [⟨.locateDevicePath parentDp, some (.ok ram)⟩] ++
      [⟨.connectController ram true, some connected⟩] ++
      [⟨.locateHandleBuffer (.byProtocol .simpleFileSystem), some (.ok handles)⟩])
  refine ⟨⟨.locateDevicePath parentDp, some (.ok ram)⟩ ::
    ⟨.connectController ram true, some connected⟩ ::
    ⟨.locateHandleBuffer (.byProtocol .simpleFileSystem), some (.ok handles)⟩ :: τ, ?_, ?_⟩
  · simp only [List.forall_mem_cons]
    exact ⟨trivial, trivial, trivial, hτ⟩
  · rw [chainloadFromRamdisk, run_mapErr_bind, ask, Program.call_bind,
      Program.run_ask_some env h _ (hlocated h)]
    dsimp only
    rw [Program.run_lift_bind, ask, Program.call_bind, Program.run_ask_some env _ _ hconnected,
      if_neg hfour, run_mapErr_bind, ask, Program.call_bind,
      Program.run_ask_some env _ _ (ho.listed _)]
    dsimp only
    rw [Program.run_lift_bind, hp.payload, Program.run_bind_some env _ hrun]
    have happend : ∀ {a b c : Event Answer}, h ++ [a] ++ [b] ++ [c] ++ τ =
        h ++ a :: b :: c :: τ := by simp
    rw [happend]
    rcases hpick with ⟨g, v, q, rfl, hfirst⟩ | ⟨rfl, hall⟩
    · refine .inl ⟨g, v, q, hfirst, ?_⟩
      have hq := hfirst.descends.2.1
      dsimp only
      rw [if_neg (Nat.not_lt.mpr hq.four_le), hq.payload, buildFilePathNode_eq, ← asBytes_append]
      rfl
    · exact .inr ⟨hall, rfl⟩

variable (paths nodes env parentDp handles) in
/-- The volume is the first one whose nodes start with those of the RAM disk. -/
structure SelectsByNodes (h τ : FirmwareTrace) : Prop where
  searches : ∀ e ∈ τ, SearchCall e.call
  picks : ∃ pick,
    Yields env (findDescendant (readMemory parentDp (devicePathSize parentDp - 4)) handles) pick ∧
      ∀ v, pick = some v ↔ ∃ g q, FirstDescendant paths nodes handles g v q
  boots : ∀ g v q, FirstDescendant paths nodes handles g v q →
    (chainloadFromRamdisk arch lockedBoot imageHandle parentDp).run.run env h =
      (bootVolume arch lockedBoot imageHandle q).run.run env (h ++ τ)
  absent : (∀ g ∈ handles, ∀ v q, ¬Descends paths nodes g v q) →
    (chainloadFromRamdisk arch lockedBoot imageHandle parentDp).run.run env h =
      (h ++ τ, some (.error .notFound))
  reads : ∀ v, ∃ σ matched,
    (candidateMatches (readMemory parentDp (devicePathSize parentDp - 4)) (devicePathSize v)).run
        (sliceEnv v) [] = (σ, some matched) ∧
      (∀ e ∈ σ, e.call.length ≤ devicePathSize v) ∧
      (matched = true ↔ ∃ q, Measured v q ∧ nodes <+: q)

/-- Comparing bytes chooses by nodes, for any list of handles and any device paths. -/
theorem chainload_selects_by_nodes (hp : RamDiskPath parentDp nodes)
    (ho : Offers paths env parentDp handles) (h : FirmwareTrace) :
    ∃ τ, SelectsByNodes paths nodes arch lockedBoot imageHandle env parentDp handles h τ := by
  obtain ⟨τ, hτ, hrun⟩ := run_chainload arch lockedBoot imageHandle hp ho h
  refine ⟨τ, hτ, yields_pick hp ho, ?_, ?_, ?_⟩
  · intro g v q hfirst
    rcases hrun with ⟨g', v', q', hfirst', hboot⟩ | ⟨hall, -⟩
    · rw [(hfirst.unique hfirst').2]
      exact hboot
    · exact absurd hfirst.descends (hall g hfirst.mem v q)
  · intro hall
    rcases hrun with ⟨g, v, q, hfirst, -⟩ | ⟨-, hnone⟩
    · exact absurd hfirst.descends (hall g hfirst.mem v q)
    · exact hnone
  · intro v
    obtain ⟨σ, matched, hmatch, hσ, hiff⟩ :=
      run_candidateMatches (readMemory parentDp (devicePathSize parentDp - 4)) v
    refine ⟨σ, matched, hmatch, hσ, hiff.trans ?_⟩
    rw [hp.payload]
    exact prefix_bytes_iff hp.named hp.fit

end Dispatch

def ramDiskNode : Node := ⟨typeMedia, mediaVendor, (ramDiskDevicePath.drop 4).take 16⟩

/-- The path that `run_sre_flow` passes is one. -/
theorem ramDiskPath_ramDiskDevicePath :
    RamDiskPath (memoryOf ramDiskDevicePath) [ramDiskNode] := by
  refine ⟨⟨⟨?_, rfl, ?_⟩, by decide⟩, by decide⟩
  · apply IsChain.cons _ _ isChain_endEntire
    · exact fun hend => absurd hend.1 (by decide)
    · unfold Node.Fits
      decide
  · exact holds_self _

def partitionNode : Node := ⟨typeMedia, mediaHardDrive, List.replicate 38 1⟩

/-- No path, a null one, zeros, an ACPI path, and the partition on the RAM disk. -/
def samplePaths : Handle → Except Status (Option Memory)
  | 1 => .error efiNotFound
  | 2 => .ok none
  | 3 => .ok (some (memoryOf []))
  | 4 => .ok (some (memoryOf acpiPath))
  | _ => .ok (some (memoryOf (asBytes [ramDiskNode, partitionNode, endEntire])))

def sampleEnv : FirmwareEnv
  | _, .locateDevicePath _ => some (.ok 9)
  | _, .connectController _ _ => some (.ok ())
  | _, .locateHandleBuffer _ => some (.ok [1, 2, 3, 4, 5])
  | _, .handleProtocolUncheckedDevicePath g => some (samplePaths g)
  | _, _ => none

theorem offers_sampleEnv (parentDp : Memory) :
    Offers samplePaths sampleEnv parentDp [1, 2, 3, 4, 5] :=
  ⟨⟨9, fun _ => rfl⟩, fun _ _ => ⟨.ok (), rfl⟩, fun _ => rfl, fun _ _ => rfl⟩

theorem chainload_selects_by_nodes_sample :
    ∃ τ, @SelectsByNodes samplePaths [ramDiskNode] specDevicePath .x86_64 .enter 0 sampleEnv
      (memoryOf ramDiskDevicePath) [1, 2, 3, 4, 5] [] τ :=
  @chainload_selects_by_nodes samplePaths [ramDiskNode] specDevicePath .x86_64 .enter 0 sampleEnv
    (memoryOf ramDiskDevicePath) [1, 2, 3, 4, 5] ramDiskPath_ramDiskDevicePath
    (offers_sampleEnv _) []

def bareEnd : Memory := memoryOf (asBytes [endEntire])

/-- Below a path without nodes the first path is taken, here one that is malformed. -/
theorem chainload_below_bareEnd :
    Measured bareEnd ([] ++ [endEntire]) ∧ Offers samplePaths sampleEnv bareEnd [1, 2, 3, 4, 5] ∧
      (¬∃ τ, @SelectsByNodes samplePaths [] specDevicePath .x86_64 .enter 0 sampleEnv bareEnd
        [1, 2, 3, 4, 5] [] τ) ∧
      ∃ τ, (@chainloadFromRamdisk specDevicePath .x86_64 .enter 0 bareEnd).run.run sampleEnv [] =
        (τ, some (.error .invalidParameter)) := by
  have hsize : devicePathSize (memoryOf []) = 0 := by decide
  have hpick : ∃ τ, (findDescendant (readMemory bareEnd (devicePathSize bareEnd - 4))
      [1, 2, 3, 4, 5]).run sampleEnv [] = (τ, some (some (memoryOf []))) := ⟨_, rfl⟩
  refine ⟨⟨⟨isChain_endEntire, rfl, holds_self _⟩, by decide⟩, offers_sampleEnv _, ?_, _, rfl⟩
  rintro ⟨τ, -, ⟨pick, hyields, hiff⟩, -⟩
  obtain ⟨σ, hrun⟩ := hyields []
  obtain ⟨σ', hrun'⟩ := hpick
  cases hrun.symm.trans hrun'
  obtain ⟨g, q, hfirst⟩ := (hiff (memoryOf [])).mp rfl
  have hfour := hfirst.descends.2.1.four_le
  omega

end PatinaChainloadVolume
