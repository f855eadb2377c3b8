import OdpPlatform.PatinaBpRecovery
import OdpPlatform.PatinaLoadOption

/-! # device_path_size on arbitrary memory

The walk with its reads as calls to the memory, the chain that it measures, and the validator of
load options beside it. -/
namespace PatinaDevicePathSize

open ByteBuffer DevicePathNodes DevicePathChain InteractionProgram FirmwareServices
open PatinaBootOptions PatinaLoadOption PatinaBpRecovery

structure HeaderRead where
  offset : ℕ

structure NodeHeader where
  type : UInt8
  subType : UInt8
  low : UInt8
  high : UInt8

abbrev HeaderAnswer (_ : HeaderRead) : Type := NodeHeader

def walk (consumed : ℕ) : Program HeaderAnswer ℕ :=
  if consumed > devicePathMaxBytes - nodeHdrBytes then .done 0
  else
    .ask ⟨consumed⟩ fun hdr =>
      let length := (u16FromLeBytes hdr.low hdr.high).toNat
      let isEndEntire := hdr.type == typeEnd && hdr.subType == subtypeEntire
      if length < nodeHdrBytes then .done 0
      else if isEndEntire ∧ length ≠ nodeHdrBytes then .done 0
      else if consumed + length > devicePathMaxBytes then .done 0
      else if isEndEntire then .done (consumed + length)
      else walk (consumed + length)
termination_by devicePathMaxBytes - consumed
decreasing_by
  unfold nodeHdrBytes at *
  omega

def memoryEnv (m : Memory) : Environment HeaderAnswer := fun _ c =>
  some ⟨m c.offset, m (c.offset + 1), m (c.offset + 2), m (c.offset + 3)⟩

def ReadsBelowCap (τ : Trace HeaderAnswer) : Prop :=
  ∀ e ∈ τ, e.call.offset + nodeHdrBytes ≤ devicePathMaxBytes

/-- The walk comes back, with the size that `device_path_size` computes. -/
theorem run_walk (m : Memory) : ∀ (fuel consumed : ℕ) (h : Trace HeaderAnswer),
    devicePathMaxBytes < consumed + nodeHdrBytes * fuel + nodeHdrBytes →
      ∃ τ, (walk consumed).run (memoryEnv m) h =
        (h ++ τ, some (devicePathSizeFrom m fuel consumed)) ∧ ReadsBelowCap τ := by
  intro fuel
  induction fuel with
  | zero =>
    intro consumed h hfuel
    have hcap : consumed > devicePathMaxBytes - nodeHdrBytes := by
      unfold devicePathMaxBytes nodeHdrBytes at *
      omega
    rw [walk, if_pos hcap]
    exact ⟨[], by rw [List.append_nil]; rfl, nofun⟩
  | succ fuel ih =>
    intro consumed h hfuel
    rw [walk, devicePathSizeFrom]
    by_cases hcap : consumed > devicePathMaxBytes - nodeHdrBytes
    · rw [if_pos hcap, if_pos hcap]
      exact ⟨[], by rw [List.append_nil]; rfl, nofun⟩
    · rw [if_neg hcap, if_neg hcap, Program.run_ask_some _ _ _ rfl]
      have hbelow : ∀ (a : Option NodeHeader) {τ : Trace HeaderAnswer}, ReadsBelowCap τ →
          ReadsBelowCap (⟨⟨consumed⟩, a⟩ :: τ) := by
        intro a τ hτ
        apply List.forall_mem_cons.mpr ⟨_, hτ⟩
        unfold devicePathMaxBytes nodeHdrBytes at *
        change consumed + 4 ≤ _
        omega
      dsimp only
      split
      · exact ⟨_, rfl, hbelow _ nofun⟩
      split
      · exact ⟨_, rfl, hbelow _ nofun⟩
      split
      · exact ⟨_, rfl, hbelow _ nofun⟩
      split
      · exact ⟨_, rfl, hbelow _ nofun⟩
      next hlength _ _ _ =>
        have hnext : devicePathMaxBytes < consumed +
            (u16FromLeBytes (m (consumed + 2)) (m (consumed + 3))).toNat + nodeHdrBytes * fuel +
              nodeHdrBytes := by
          unfold nodeHdrBytes at *
          omega
        obtain ⟨τ, hrun, hτ⟩ := ih _ (h ++ [⟨⟨consumed⟩, some _⟩]) hnext
        exact ⟨_ :: τ, by rw [hrun, List.append_assoc]; rfl, hbelow _ hτ⟩

/-- The nodes through the first EndEntire, which holds nothing. -/
structure PathAt (m : Memory) (pos : ℕ) (p : DevicePath) : Prop where
  chain : IsChain p
  last : p.getLast? = some endEntire
  holds : Holds m pos (asBytes p)

def lengthAt (m : Memory) (pos : ℕ) : ℕ := (u16FromLeBytes (m (pos + 2)) (m (pos + 3))).toNat

def nodeAt (m : Memory) (pos : ℕ) : Node :=
  ⟨m pos, m (pos + 1), (List.range (lengthAt m pos - nodeHdrBytes)).map fun i =>
    m (pos + nodeHdrBytes + i)⟩

theorem nodeAt_of_holds {m : Memory} {pos : ℕ} {n : Node} (hn : Node.Fits n)
    (hm : Holds m pos n.bytes) :
    nodeAt m pos = n ∧ lengthAt m pos = nodeHdrBytes + n.data.length := by
  obtain ⟨htype, hsub, hlen, hdata⟩ := holds_node hn hm
  have hlength : lengthAt m pos = nodeHdrBytes + n.data.length := by
    rw [lengthAt, toNat_u16FromLeBytes, hlen]
  refine ⟨?_, hlength⟩
  rw [nodeAt, hlength, Nat.add_sub_cancel_left, hdata, htype, hsub]

theorem length_data_nodeAt (m : Memory) (pos : ℕ) :
    (nodeAt m pos).data.length = lengthAt m pos - nodeHdrBytes := by
  rw [nodeAt, List.length_map, List.length_range]

/-- Memory whose length field covers the header holds a node. -/
theorem holds_nodeAt {m : Memory} {pos : ℕ} (hlength : nodeHdrBytes ≤ lengthAt m pos) :
    Node.Fits (nodeAt m pos) ∧ Holds m pos (nodeAt m pos).bytes := by
  have hdata := length_data_nodeAt m pos
  have hbytes : nodeHdrBytes + (nodeAt m pos).data.length = lengthAt m pos := by omega
  have hfield : lengthAt m pos = (m (pos + 2)).toNat + 256 * (m (pos + 3)).toNat :=
    toNat_u16FromLeBytes _ _
  have hlow := (m (pos + 2)).toNat_lt
  have hhigh := (m (pos + 3)).toNat_lt
  constructor
  · rw [Node.Fits, hbytes]
    omega
  · intro i hi
    rw [length_bytes, hbytes] at hi
    rw [Node.bytes, hbytes]
    obtain rfl | rfl | rfl | rfl | ⟨i, rfl⟩ : i = 0 ∨ i = 1 ∨ i = 2 ∨ i = 3 ∨ ∃ j, i = j + 4 := by
      by_cases hlast : i < 4
      · omega
      · exact .inr (.inr (.inr (.inr ⟨i - 4, by omega⟩)))
    · rfl
    · rfl
    · apply UInt8.toNat_inj.mp
      change _ = (UInt8.ofNat (lengthAt m pos)).toNat
      rw [UInt8.toNat_ofNat', hfield]
      omega
    · apply UInt8.toNat_inj.mp
      change _ = (UInt8.ofNat (lengthAt m pos / 256)).toNat
      rw [UInt8.toNat_ofNat', hfield]
      omega
    · have hin : i < (nodeAt m pos).data.length := by
        unfold nodeHdrBytes at *
        omega
      change _ = (nodeAt m pos).data.getD i 0
      rw [List.getD_eq_getElem _ _ hin]
      simp only [nodeAt, List.getElem_map, List.getElem_range]
      rw [Nat.add_comm i 4, ← Nat.add_assoc]
      rfl

/-- The first node of a path in memory, and what follows it. -/
theorem pathAt_iff {m : Memory} {pos : ℕ} {p : DevicePath} :
    PathAt m pos p ↔ nodeHdrBytes ≤ lengthAt m pos ∧
      ((IsEndEntire (nodeAt m pos) ∧ lengthAt m pos = nodeHdrBytes ∧ p = [endEntire]) ∨
        (¬IsEndEntire (nodeAt m pos) ∧ ∃ q, p = nodeAt m pos :: q ∧
          PathAt m (pos + lengthAt m pos) q)) := by
  constructor
  · rintro ⟨hchain, hlast, hholds⟩
    cases hchain with
    | @last n hend hfits =>
      rw [List.getLast?_singleton, Option.some.injEq] at hlast
      have hn : Holds m pos n.bytes := by simpa [asBytes] using hholds
      obtain ⟨hnode, hlength⟩ := nodeAt_of_holds hfits hn
      rw [hnode, hlength, hlast]
      exact ⟨Nat.le_add_right _ _, .inl ⟨hlast ▸ hend, rfl, rfl⟩⟩
    | @cons n q hend hfits hq =>
      rw [asBytes_cons] at hholds
      obtain ⟨hn, hrest⟩ := holds_append.mp hholds
      obtain ⟨hnode, hlength⟩ := nodeAt_of_holds hfits hn
      rw [length_bytes] at hrest
      rw [hnode, hlength]
      refine ⟨Nat.le_add_right _ _, .inr ⟨hend, q, rfl, hq, ?_, hrest⟩⟩
      cases hq with
      | last => exact hlast
      | cons => exact hlast
  · rintro ⟨hlength, ⟨hend, hfour, rfl⟩ | ⟨hend, q, rfl, hq⟩⟩
    · obtain ⟨hfits, hholds⟩ := holds_nodeAt hlength
      have hdata : (nodeAt m pos).data = [] := by
        apply List.eq_nil_of_length_eq_zero
        rw [length_data_nodeAt, hfour, Nat.sub_self]
      have hnode : nodeAt m pos =
          ⟨(nodeAt m pos).type, (nodeAt m pos).subType, (nodeAt m pos).data⟩ := rfl
      rw [hend.1, hend.2, hdata] at hnode
      change nodeAt m pos = endEntire at hnode
      rw [hnode] at hend hfits hholds
      exact ⟨.last hend hfits, rfl, by simpa [asBytes] using hholds⟩
    · obtain ⟨hfits, hholds⟩ := holds_nodeAt hlength
      have hbytes : (nodeAt m pos).bytes.length = lengthAt m pos := by
        rw [length_bytes, length_data_nodeAt]
        omega
      refine ⟨.cons hend hfits hq.chain, ?_, ?_⟩
      · have hne : q ≠ [] := by
          rintro rfl
          cases hq.chain
        rw [List.getLast?_cons_of_ne_nil hne]
        exact hq.last
      · rw [asBytes_cons, holds_append, hbytes]
        exact ⟨hholds, hq.holds⟩

theorem PathAt.unique {m : Memory} {pos : ℕ} {p q : DevicePath} (hp : PathAt m pos p)
    (hq : PathAt m pos q) : p = q := by
  induction p generalizing pos q with
  | nil => cases hp.chain
  | cons n p ih =>
    obtain ⟨-, ⟨hend, -, hone⟩ | ⟨hend, p', hcons, hp'⟩⟩ := pathAt_iff.mp hp
    · obtain ⟨-, ⟨-, -, hone'⟩ | ⟨hend', -⟩⟩ := pathAt_iff.mp hq
      · rw [hone, hone']
      · exact absurd hend hend'
    · obtain ⟨-, ⟨hend', -⟩ | ⟨-, q', rfl, hq'⟩⟩ := pathAt_iff.mp hq
      · exact absurd hend' hend
      · obtain ⟨rfl, rfl⟩ := List.cons_eq_cons.mp hcons
        rw [ih hp' hq']

theorem length_asBytes_nodeAt {m : Memory} {pos : ℕ} (hlength : nodeHdrBytes ≤ lengthAt m pos)
    (q : DevicePath) :
    (asBytes (nodeAt m pos :: q)).length = lengthAt m pos + (asBytes q).length := by
  rw [asBytes_cons, List.length_append, length_bytes, length_data_nodeAt]
  omega

/-- A path goes through its first node. -/
theorem PathAt.length_le {m : Memory} {pos : ℕ} {p : DevicePath} (hp : PathAt m pos p) :
    nodeHdrBytes ≤ lengthAt m pos ∧ lengthAt m pos ≤ (asBytes p).length := by
  obtain ⟨hlength, ⟨-, hfour, rfl⟩ | ⟨-, q, rfl, -⟩⟩ := pathAt_iff.mp hp
  · rw [hfour]
    exact ⟨Nat.le_refl _, Nat.le_refl _⟩
  · rw [length_asBytes_nodeAt hlength]
    exact ⟨hlength, Nat.le_add_right _ _⟩

theorem devicePathSizeFrom_succ (m : Memory) (fuel pos : ℕ) :
    devicePathSizeFrom m (fuel + 1) pos =
      if pos > devicePathMaxBytes - nodeHdrBytes then 0
      else if lengthAt m pos < nodeHdrBytes then 0
      else if IsEndEntire (nodeAt m pos) ∧ lengthAt m pos ≠ nodeHdrBytes then 0
      else if pos + lengthAt m pos > devicePathMaxBytes then 0
      else if IsEndEntire (nodeAt m pos) then pos + lengthAt m pos
      else devicePathSizeFrom m fuel (pos + lengthAt m pos) := by
  have hend : (m pos == typeEnd && m (pos + 1) == subtypeEntire) = true ↔
      IsEndEntire (nodeAt m pos) := by
    rw [Bool.and_eq_true, beq_iff_eq, beq_iff_eq]
    rfl
  rw [devicePathSizeFrom]
  simp only [hend]
  rfl

/-- The walk from an offset on ends behind the path there, if there is one below the cap. -/
theorem devicePathSizeFrom_eq_iff (m : Memory) {n : ℕ} (hn : 0 < n) : ∀ (fuel pos : ℕ),
    devicePathMaxBytes < pos + nodeHdrBytes * fuel + nodeHdrBytes →
      (devicePathSizeFrom m fuel pos = n ↔
        ∃ p, PathAt m pos p ∧ pos + (asBytes p).length = n ∧ n ≤ devicePathMaxBytes) := by
  intro fuel
  have hzero : ∀ {P : Prop}, ¬P → (0 = n ↔ P) := fun hP =>
    ⟨fun h => absurd h hn.ne, fun h => absurd h hP⟩
  have hhdr : nodeHdrBytes = 4 := rfl
  have hmax : devicePathMaxBytes = 65536 := rfl
  induction fuel with
  | zero =>
    intro pos hfuel
    apply hzero
    rintro ⟨p, hp, rfl, hcap⟩
    obtain ⟨hfour, hle⟩ := hp.length_le
    omega
  | succ fuel ih =>
    intro pos hfuel
    rw [Nat.mul_succ] at hfuel
    rw [devicePathSizeFrom_succ]
    by_cases hcap : pos > devicePathMaxBytes - nodeHdrBytes
    · rw [if_pos hcap]
      apply hzero
      rintro ⟨p, hp, rfl, hle⟩
      obtain ⟨hfour, hlength⟩ := hp.length_le
      omega
    rw [if_neg hcap]
    by_cases hshort : lengthAt m pos < nodeHdrBytes
    · rw [if_pos hshort]
      apply hzero
      rintro ⟨p, hp, -⟩
      exact absurd hp.length_le.1 (not_le.mpr hshort)
    rw [if_neg hshort]
    by_cases hlong : IsEndEntire (nodeAt m pos) ∧ lengthAt m pos ≠ nodeHdrBytes
    · rw [if_pos hlong]
      apply hzero
      rintro ⟨p, hp, -⟩
      obtain ⟨-, ⟨-, hfour, -⟩ | ⟨hnot, -⟩⟩ := pathAt_iff.mp hp
      · exact hlong.2 hfour
      · exact hnot hlong.1
    rw [if_neg hlong]
    by_cases hover : pos + lengthAt m pos > devicePathMaxBytes
    · rw [if_pos hover]
      apply hzero
      rintro ⟨p, hp, rfl, hle⟩
      have hlength := hp.length_le.2
      omega
    rw [if_neg hover]
    by_cases hentire : IsEndEntire (nodeAt m pos)
    · have hfour : lengthAt m pos = nodeHdrBytes := by
        by_contra hne
        exact hlong ⟨hentire, hne⟩
      have hp : PathAt m pos [endEntire] :=
        pathAt_iff.mpr ⟨not_lt.mp hshort, .inl ⟨hentire, hfour, rfl⟩⟩
      rw [if_pos hentire, hfour]
      constructor
      · rintro rfl
        exact ⟨[endEntire], hp, rfl, by omega⟩
      · rintro ⟨q, hq, rfl, -⟩
        rw [← hp.unique hq]
        rfl
    · rw [if_neg hentire, ih (pos + lengthAt m pos) (by omega)]
      constructor
      · rintro ⟨q, hq, rfl, hle⟩
        refine ⟨nodeAt m pos :: q,
          pathAt_iff.mpr ⟨not_lt.mp hshort, .inr ⟨hentire, q, rfl, hq⟩⟩, ?_, hle⟩
        rw [length_asBytes_nodeAt (not_lt.mp hshort), Nat.add_assoc]
      · rintro ⟨p, hp, rfl, hle⟩
        obtain ⟨-, ⟨hend', -⟩ | ⟨-, q, rfl, hq⟩⟩ := pathAt_iff.mp hp
        · exact absurd hend' hentire
        · rw [length_asBytes_nodeAt (not_lt.mp hshort), ← Nat.add_assoc] at hle ⊢
          exact ⟨q, hq, rfl, hle⟩

/-- A path that fits under the cap is what is measured. -/
theorem devicePathSize_eq_iff (m : Memory) {n : ℕ} (hn : 0 < n) :
    devicePathSize m = n ↔
      ∃ p, PathAt m 0 p ∧ (asBytes p).length = n ∧ n ≤ devicePathMaxBytes := by
  have hsize := devicePathSizeFrom_eq_iff m hn devicePathMaxBytes 0
    (by unfold devicePathMaxBytes nodeHdrBytes; omega)
  simp only [Nat.zero_add] at hsize
  exact hsize

/-- On every memory the walk comes back and reads below the cap; a positive size is that of the
path that lies there. -/
theorem device_path_size_exact (m : Memory) :
    ∃ τ, (walk 0).run (memoryEnv m) [] = (τ, some (devicePathSize m)) ∧ ReadsBelowCap τ ∧
      (∀ n, 0 < n → (devicePathSize m = n ↔
        ∃ p, PathAt m 0 p ∧ (asBytes p).length = n ∧ n ≤ devicePathMaxBytes)) ∧
      (devicePathSize m = 0 ↔
        ¬∃ p, PathAt m 0 p ∧ (asBytes p).length ≤ devicePathMaxBytes) := by
  obtain ⟨τ, hrun, hτ⟩ := run_walk m devicePathMaxBytes 0 []
    (by unfold devicePathMaxBytes nodeHdrBytes; omega)
  rw [List.nil_append] at hrun
  refine ⟨τ, hrun, hτ, fun n hn => devicePathSize_eq_iff m hn, ?_⟩
  constructor
  · rintro hzero ⟨p, hp, hcap⟩
    have hpos : 0 < (asBytes p).length := by
      obtain ⟨hfour, hle⟩ := hp.length_le
      unfold nodeHdrBytes at hfour
      omega
    have hsize := (devicePathSize_eq_iff m hpos).mpr ⟨p, hp, rfl, hcap⟩
    omega
  · intro hnone
    by_contra hne
    obtain ⟨p, hp, hlength, hcap⟩ :=
      (devicePathSize_eq_iff m (Nat.pos_of_ne_zero hne)).mp rfl
    exact hnone ⟨p, hp, hlength ▸ hcap⟩

theorem holds_self (b : Bytes) : Holds (memoryOf b) 0 b := by
  intro i _
  rw [Nat.zero_add, memoryOf]

theorem prefix_of_holds {m : Memory} {a b : Bytes} (ha : Holds m 0 a) (hb : Holds m 0 b)
    (hle : a.length ≤ b.length) : ∃ rest, b = a ++ rest := by
  refine ⟨b.drop a.length, ?_⟩
  have htake : b.take a.length = a := by
    apply List.ext_getElem
    · rw [List.length_take]
      omega
    · intro i hi hi'
      have hsame := (ha i hi').symm.trans (hb i (by omega))
      rw [List.getD_eq_getElem _ _ hi', List.getD_eq_getElem _ _ (by omega)] at hsame
      rw [List.getElem_take, hsame]
  have hsplit := List.take_append_drop a.length b
  rw [htake] at hsplit
  exact hsplit.symm

/-- The first EndEntire node of the buffer, where its nodes reach one, holds nothing. -/
def EndsEmpty (buffer : Bytes) : Prop :=
  ∀ p trailing, IsChain p → buffer = asBytes p ++ trailing → p.getLast? = some endEntire

/-- A path in memory lies inside the buffer that the memory holds, or reaches beyond it. -/
theorem size_inside_iff {buffer : Bytes} {m : Memory} (hlen : buffer.length ≤ devicePathMaxBytes)
    (hm : Holds m 0 buffer) :
    (0 < devicePathSize m ∧ devicePathSize m ≤ buffer.length) ↔
      ∃ p trailing, IsChain p ∧ p.getLast? = some endEntire ∧ buffer = asBytes p ++ trailing := by
  constructor
  · rintro ⟨hpos, hle⟩
    obtain ⟨p, hp, hlength, -⟩ := (devicePathSize_eq_iff m hpos).mp rfl
    obtain ⟨trailing, hsplit⟩ := prefix_of_holds hp.holds hm (hlength ▸ hle)
    exact ⟨p, trailing, hp.chain, hp.last, hsplit⟩
  · rintro ⟨p, trailing, hchain, hlast, rfl⟩
    have hp : PathAt m 0 p := ⟨hchain, hlast, (holds_append.mp hm).1⟩
    have hpos : 0 < (asBytes p).length := by
      obtain ⟨hfour, hle⟩ := hp.length_le
      unfold nodeHdrBytes at hfour
      omega
    have hle : (asBytes p).length ≤ (asBytes p ++ trailing).length := by
      rw [List.length_append]
      exact Nat.le_add_right _ _
    rw [(devicePathSize_eq_iff m hpos).mpr ⟨p, hp, rfl, hle.trans hlen⟩]
    exact ⟨hpos, hle⟩

/-- The two walkers agree on a buffer exactly if no EndEntire node with data ends its nodes. -/
theorem validators_agree_iff {buffer : Bytes} {m : Memory}
    (hlen : buffer.length ≤ devicePathMaxBytes) (hm : Holds m 0 buffer) :
    (validateDevicePathNodes buffer = true ↔
      0 < devicePathSize m ∧ devicePathSize m ≤ buffer.length) ↔ EndsEmpty buffer := by
  rw [validateDevicePathNodes_iff, size_inside_iff hlen hm]
  constructor
  · intro hagree p trailing hchain hsplit
    obtain ⟨q, rest, hq, hlast, hsplit'⟩ := hagree.mp ⟨p, trailing, hchain, hsplit⟩
    rw [chain_unique hchain hq hsplit hsplit']
    exact hlast
  · intro hends
    constructor
    · rintro ⟨p, trailing, hchain, hsplit⟩
      exact ⟨p, trailing, hchain, hends p trailing hchain hsplit, hsplit⟩
    · rintro ⟨p, trailing, hchain, -, hsplit⟩
      exact ⟨p, trailing, hchain, hsplit⟩

def acpiPath : Bytes :=
  [0x02, 0x01, 0x0C, 0x00, 0x41, 0xD0, 0x0A, 0x03, 0x00, 0x00, 0x00, 0x00, 0x7F, 0xFF, 0x04, 0x00]

theorem validators_agree_acpiPath :
    (validateDevicePathNodes acpiPath = true ↔
      0 < devicePathSize (memoryOf acpiPath) ∧
        devicePathSize (memoryOf acpiPath) ≤ acpiPath.length) ↔ EndsEmpty acpiPath :=
  validators_agree_iff (by decide) (holds_self acpiPath)

def longEndEntire : Bytes := [0x7F, 0xFF, 0x08, 0x00, 0, 0, 0, 0]

/-- An EndEntire node of eight bytes is accepted by one walker only. -/
theorem longEndEntire_accepted_once :
    validateDevicePathNodes longEndEntire = true ∧ devicePathSize (memoryOf longEndEntire) = 0 ∧
      ¬(validateDevicePathNodes longEndEntire = true ↔
        0 < devicePathSize (memoryOf longEndEntire) ∧
          devicePathSize (memoryOf longEndEntire) ≤ longEndEntire.length) := by
  have hzero : devicePathSize (memoryOf longEndEntire) = 0 := by
    rw [devicePathSize, devicePathMaxBytes]
    rfl
  have hvalid : validateDevicePathNodes longEndEntire = true := by decide
  refine ⟨hvalid, hzero, ?_⟩
  rw [hzero, hvalid]
  simp

end PatinaDevicePathSize
