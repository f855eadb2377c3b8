import OdpPlatform.DevicePathNodes
import Mathlib.Data.List.GetD

/-! # Node chains in bytes

A device path in memory is a chain of nodes, each with its own length in its header, through the
first EndEntire node. A byte sequence starts with at most one such chain. -/
namespace DevicePathChain

open ByteBuffer DevicePathNodes

def IsEndEntire (n : Node) : Prop := n.type = typeEnd ∧ n.subType = subtypeEntire

instance (n : Node) : Decidable (IsEndEntire n) := inferInstanceAs (Decidable (_ ∧ _))

def Node.Fits (n : Node) : Prop := nodeHdrBytes + n.data.length < 2 ^ 16

inductive IsChain : DevicePath → Prop where
  | last {n : Node} : IsEndEntire n → Node.Fits n → IsChain [n]
  | cons {n : Node} {rest : DevicePath} :
      ¬IsEndEntire n → Node.Fits n → IsChain rest → IsChain (n :: rest)

theorem isChain_append {nodes q : DevicePath} (hq : IsChain q) :
    IsChain (nodes ++ q) ↔ ∀ n ∈ nodes, ¬IsEndEntire n ∧ Node.Fits n := by
  induction nodes with
  | nil => exact ⟨fun _ => nofun, fun _ => hq⟩
  | cons n nodes ih =>
    rw [List.cons_append, List.forall_mem_cons, ← ih]
    constructor
    · intro h
      have hne : nodes ++ q ≠ [] := by
        intro hnil
        rw [(List.append_eq_nil_iff.mp hnil).2] at hq
        cases hq
      generalize hrest : nodes ++ q = rest at h hne
      cases h with
      | last => exact absurd rfl hne
      | cons hend hfits hchain => exact ⟨⟨hend, hfits⟩, hchain⟩
    · rintro ⟨⟨hend, hfits⟩, hchain⟩
      exact .cons hend hfits hchain

theorem isChain_endEntire : IsChain [endEntire] :=
  .last ⟨rfl, rfl⟩ (by unfold Node.Fits nodeHdrBytes; decide)

def headLength (b : Bytes) : ℕ := (b.getD 2 0).toNat + 256 * (b.getD 3 0).toNat

def headNode (b : Bytes) : Node :=
  ⟨b.getD 0 0, b.getD 1 0, (b.drop nodeHdrBytes).take (headLength b - nodeHdrBytes)⟩

theorem length_bytes (n : Node) : n.bytes.length = nodeHdrBytes + n.data.length := by
  simp [Node.bytes, nodeHdrBytes]
  omega

theorem headLength_bytes {n : Node} (hn : Node.Fits n) (rest : Bytes) :
    headLength (n.bytes ++ rest) = n.bytes.length := by
  unfold Node.Fits at hn
  have hlow : (n.bytes ++ rest).getD 2 0 = UInt8.ofNat (nodeHdrBytes + n.data.length) := rfl
  have hhigh : (n.bytes ++ rest).getD 3 0 = UInt8.ofNat ((nodeHdrBytes + n.data.length) / 256) :=
    rfl
  rw [headLength, hlow, hhigh, UInt8.toNat_ofNat', UInt8.toNat_ofNat', length_bytes]
  omega

theorem headNode_bytes {n : Node} (hn : Node.Fits n) (rest : Bytes) :
    headNode (n.bytes ++ rest) = n := by
  have hdrop : (n.bytes ++ rest).drop nodeHdrBytes = n.data ++ rest := rfl
  have hdata : n.bytes.length - nodeHdrBytes = n.data.length := by
    rw [length_bytes]
    omega
  rw [headNode, headLength_bytes hn, hdrop, hdata, List.take_left']
  · rfl
  · rfl

/-- A sequence whose first header is whole, and whose first node lies inside, starts with it. -/
theorem bytes_headNode {b : Bytes} (hhdr : nodeHdrBytes ≤ headLength b)
    (hin : headLength b ≤ b.length) :
    Node.Fits (headNode b) ∧ b = (headNode b).bytes ++ b.drop (headLength b) := by
  have hbound : headLength b < 2 ^ 16 := by
    have hlow := (b.getD 2 0).toNat_lt
    have hhigh := (b.getD 3 0).toNat_lt
    unfold headLength
    omega
  have hdata : (headNode b).data.length = headLength b - nodeHdrBytes := by
    rw [headNode, List.length_take, List.length_drop]
    omega
  have hlen : nodeHdrBytes + (headNode b).data.length = headLength b := by omega
  constructor
  · unfold Node.Fits
    omega
  · rcases b with _ | ⟨b₀, _ | ⟨b₁, _ | ⟨b₂, _ | ⟨b₃, tail⟩⟩⟩⟩
    all_goals try (simp [nodeHdrBytes] at hhdr hin; omega)
    have hfield : headLength (b₀ :: b₁ :: b₂ :: b₃ :: tail) = b₂.toNat + 256 * b₃.toNat := rfl
    have hlt := b₂.toNat_lt
    have hlow : UInt8.ofNat (headLength (b₀ :: b₁ :: b₂ :: b₃ :: tail)) = b₂ := by
      apply UInt8.toNat_inj.mp
      rw [UInt8.toNat_ofNat', hfield]
      omega
    have hhigh : UInt8.ofNat (headLength (b₀ :: b₁ :: b₂ :: b₃ :: tail) / 256) = b₃ := by
      apply UInt8.toNat_inj.mp
      rw [UInt8.toNat_ofNat', hfield]
      omega
    have hrest : (b₀ :: b₁ :: b₂ :: b₃ :: tail).drop (headLength (b₀ :: b₁ :: b₂ :: b₃ :: tail)) =
        tail.drop (headLength (b₀ :: b₁ :: b₂ :: b₃ :: tail) - nodeHdrBytes) := by
      have hsplit : headLength (b₀ :: b₁ :: b₂ :: b₃ :: tail) =
          nodeHdrBytes + (headLength (b₀ :: b₁ :: b₂ :: b₃ :: tail) - nodeHdrBytes) := by omega
      rw [hsplit, ← List.drop_drop, Nat.add_sub_cancel_left]
      rfl
    rw [Node.bytes, hlen, hlow, hhigh, hrest]
    exact congrArg (fun t => b₀ :: b₁ :: b₂ :: b₃ :: t) (List.take_append_drop _ tail).symm

theorem asBytes_append (p q : DevicePath) : asBytes (p ++ q) = asBytes p ++ asBytes q :=
  List.flatMap_append

theorem asBytes_cons (n : Node) (rest : DevicePath) : asBytes (n :: rest) = n.bytes ++ asBytes rest :=
  rfl

/-- A chain at the front of a byte sequence: its first node is the sequence's first node. -/
theorem chain_head {p : DevicePath} (hp : IsChain p) {b rest : Bytes} (hb : b = asBytes p ++ rest) :
    nodeHdrBytes ≤ headLength b ∧ headLength b ≤ b.length ∧
      ((IsEndEntire (headNode b) ∧ p = [headNode b]) ∨
        (¬IsEndEntire (headNode b) ∧ ∃ p', p = headNode b :: p' ∧ IsChain p' ∧
          b.drop (headLength b) = asBytes p' ++ rest)) := by
  cases hp with
  | @last n hend hfits =>
    have hb' : b = n.bytes ++ rest := by simpa [asBytes] using hb
    rw [hb', headLength_bytes hfits, headNode_bytes hfits]
    have hlen := length_bytes n
    refine ⟨by omega, by simp, .inl ⟨hend, rfl⟩⟩
  | @cons n p' hend hfits hp' =>
    have hb' : b = n.bytes ++ (asBytes p' ++ rest) := by
      rw [hb, asBytes_cons, List.append_assoc]
    rw [hb', headLength_bytes hfits, headNode_bytes hfits]
    have hlen := length_bytes n
    refine ⟨by omega, by simp, .inr ⟨hend, p', rfl, hp', ?_⟩⟩
    rw [List.drop_left]

theorem chain_of_head {b : Bytes} (hhdr : nodeHdrBytes ≤ headLength b)
    (hin : headLength b ≤ b.length) (hend : IsEndEntire (headNode b)) :
    ∃ rest, IsChain [headNode b] ∧ b = asBytes [headNode b] ++ rest := by
  obtain ⟨hfits, hb⟩ := bytes_headNode hhdr hin
  exact ⟨b.drop (headLength b), .last hend hfits, by simpa [asBytes] using hb⟩

theorem chain_of_drop {b rest : Bytes} {p : DevicePath} (hhdr : nodeHdrBytes ≤ headLength b)
    (hin : headLength b ≤ b.length) (hend : ¬IsEndEntire (headNode b)) (hp : IsChain p)
    (hdrop : b.drop (headLength b) = asBytes p ++ rest) :
    IsChain (headNode b :: p) ∧ b = asBytes (headNode b :: p) ++ rest := by
  obtain ⟨hfits, hb⟩ := bytes_headNode hhdr hin
  constructor
  · exact .cons hend hfits hp
  · rw [asBytes_cons, List.append_assoc, ← hdrop]
    exact hb

/-- A byte sequence starts with one chain at most. -/
theorem chain_unique {p : DevicePath} (hp : IsChain p) : ∀ {p' : DevicePath} {b rest rest' : Bytes},
    IsChain p' → b = asBytes p ++ rest → b = asBytes p' ++ rest' → p = p' := by
  induction hp with
  | @last n hend hfits =>
    intro p' b rest rest' hp' hb hb'
    obtain ⟨-, -, hone | hmore⟩ := chain_head (.last hend hfits) hb
    · obtain ⟨-, -, hone' | hmore'⟩ := chain_head hp' hb'
      · exact hone.2.trans hone'.2.symm
      · exact absurd hone.1 hmore'.1
    · obtain ⟨hno, q, hq, -⟩ := hmore
      cases hq
      exact absurd hend hno
  | @cons n q hend hfits hq ih =>
    intro p' b rest rest' hp' hb hb'
    obtain ⟨-, -, hone | hmore⟩ := chain_head (.cons hend hfits hq) hb
    · exact absurd (by rw [(List.cons.inj hone.2).1]; exact hone.1) hend
    · obtain ⟨hno, r, hr, -, hdrop⟩ := hmore
      obtain ⟨-, -, hone' | hmore'⟩ := chain_head hp' hb'
      · exact absurd hone'.1 hno
      · obtain ⟨-, q', hq', hchain, hdrop'⟩ := hmore'
        obtain ⟨hn, rfl⟩ := List.cons.inj hr
        rw [hq', hn, ih hchain hdrop hdrop']

def Holds (m : Memory) (pos : ℕ) (b : Bytes) : Prop :=
  ∀ i, i < b.length → m (pos + i) = b.getD i 0

theorem holds_append {m : Memory} {pos : ℕ} {a b : Bytes} :
    Holds m pos (a ++ b) ↔ Holds m pos a ∧ Holds m (pos + a.length) b := by
  constructor
  · intro h
    constructor
    · intro i hi
      rw [h i (by rw [List.length_append]; omega), List.getD_append _ _ _ _ hi]
    · intro i hi
      rw [Nat.add_assoc, h (a.length + i) (by rw [List.length_append]; omega),
        List.getD_append_right _ _ _ _ (by omega), Nat.add_sub_cancel_left]
  · rintro ⟨ha, hb⟩ i hi
    by_cases hlt : i < a.length
    · rw [ha i hlt, List.getD_append _ _ _ _ hlt]
    · rw [List.length_append] at hi
      have hnext := hb (i - a.length) (by omega)
      have hpos : pos + a.length + (i - a.length) = pos + i := by omega
      rw [hpos] at hnext
      rw [hnext, List.getD_append_right _ _ _ _ (by omega)]

theorem holds_memoryOf (b rest : Bytes) : Holds (memoryOf (b ++ rest)) 0 b := by
  intro i hi
  rw [Nat.zero_add, memoryOf, List.getD_append _ _ _ _ hi]

/-- What is relied on of the library's decoder: it returns the nodes through the first EndEntire,
whatever the memory holds behind them. -/
def ReadsChains (L : PatinaDevicePath) : Prop :=
  ∀ (m : Memory) (p : DevicePath), IsChain p → (asBytes p).length < 2 ^ 16 →
    Holds m 0 (asBytes p) → L.tryFromPtr m = some p

/-- What is relied on of the library's decoder: a path that it returns is well formed. -/
def DecodesChains (L : PatinaDevicePath) : Prop :=
  ∀ (m : Memory) (p : DevicePath), L.tryFromPtr m = some p → IsChain p

/-- What memory shows of a node that lies there. -/
theorem holds_node {m : Memory} {pos : ℕ} {n : Node} (hn : Node.Fits n) (hm : Holds m pos n.bytes) :
    m pos = n.type ∧ m (pos + 1) = n.subType ∧
      (m (pos + 2)).toNat + 256 * (m (pos + 3)).toNat = nodeHdrBytes + n.data.length ∧
      ((List.range n.data.length).map fun i => m (pos + nodeHdrBytes + i)) = n.data := by
  have hlen := length_bytes n
  have hhdr : nodeHdrBytes = 4 := rfl
  have h₀ : m (pos + 0) = n.type := hm 0 (by omega)
  have h₁ : m (pos + 1) = n.subType := hm 1 (by omega)
  have h₂ : m (pos + 2) = UInt8.ofNat (nodeHdrBytes + n.data.length) := hm 2 (by omega)
  have h₃ : m (pos + 3) = UInt8.ofNat ((nodeHdrBytes + n.data.length) / 256) := hm 3 (by omega)
  refine ⟨h₀, h₁, ?_, ?_⟩
  · unfold Node.Fits at hn
    rw [h₂, h₃, UInt8.toNat_ofNat', UInt8.toNat_ofNat']
    omega
  · apply List.ext_getElem
    · simp
    · intro i hi hi'
      have hbyte := hm (nodeHdrBytes + i) (by omega)
      have hskip : n.bytes.getD (nodeHdrBytes + i) 0 = n.data.getD i 0 := by
        rw [hhdr, Nat.add_comm]
        rfl
      rw [List.getElem_map, List.getElem_range, Nat.add_assoc, hbyte, hskip]
      exact List.getD_eq_getElem _ _ hi'

theorem decodeNodes_chain {m : Memory} {p : DevicePath} (hp : IsChain p) :
    ∀ {fuel pos : ℕ}, p.length ≤ fuel → Holds m pos (asBytes p) →
      decodeNodes m fuel pos = some p := by
  induction hp with
  | @last n hend hfits =>
    intro fuel pos hfuel hm
    cases fuel with
    | zero => simp at hfuel
    | succ fuel =>
      have hnode : Holds m pos n.bytes := by simpa [asBytes] using hm
      obtain ⟨h₀, h₁, hlen, hdata⟩ := holds_node hfits hnode
      have htrue : n.type = typeEnd ∧ n.subType = subtypeEntire := hend
      rw [decodeNodes]
      simp only [hlen, h₀, h₁, Nat.add_sub_cancel_left, hdata]
      rw [if_neg (by omega), if_pos htrue]
  | @cons n rest hend hfits _ ih =>
    intro fuel pos hfuel hm
    cases fuel with
    | zero => simp at hfuel
    | succ fuel =>
      rw [asBytes_cons] at hm
      obtain ⟨hnode, hrest⟩ := holds_append.mp hm
      rw [length_bytes] at hrest
      obtain ⟨h₀, h₁, hlen, hdata⟩ := holds_node hfits hnode
      have hfalse : ¬(n.type = typeEnd ∧ n.subType = subtypeEntire) := hend
      rw [decodeNodes]
      simp only [hlen, h₀, h₁, Nat.add_sub_cancel_left, hdata]
      rw [if_neg (by omega), if_neg hfalse, ih (by simpa using hfuel) hrest]
      rfl

theorem length_le_asBytes (p : DevicePath) : nodeHdrBytes * p.length ≤ (asBytes p).length := by
  induction p with
  | nil => simp
  | cons n rest ih =>
    have hlen := length_bytes n
    rw [asBytes_cons, List.length_append, List.length_cons, Nat.mul_succ]
    omega

theorem specDevicePath_readsChains : ReadsChains specDevicePath := by
  intro m p hp hshort hm
  have hcount := length_le_asBytes p
  unfold nodeHdrBytes at hcount
  exact decodeNodes_chain hp (by omega) hm

theorem isChain_decodeNodes (m : Memory) : ∀ (fuel pos : ℕ) (p : DevicePath),
    decodeNodes m fuel pos = some p → IsChain p := by
  intro fuel
  induction fuel with
  | zero => nofun
  | succ fuel ih =>
    intro pos p hp
    have hlow := (m (pos + 2)).toNat_lt
    have hhigh := (m (pos + 3)).toNat_lt
    rw [decodeNodes] at hp
    dsimp only at hp
    split at hp
    · cases hp
    next hlength =>
      have hfits : ∀ n : Node, n.data.length =
          (m (pos + 2)).toNat + 256 * (m (pos + 3)).toNat - nodeHdrBytes → Node.Fits n := by
        intro n hn
        rw [Node.Fits, hn]
        omega
      split at hp
      next hend =>
        cases hp
        exact .last hend (hfits _ (by simp))
      next hend =>
        obtain ⟨rest, hrest, rfl⟩ := Option.map_eq_some_iff.mp hp
        exact .cons hend (hfits _ (by simp)) (ih _ rest hrest)

theorem specDevicePath_decodesChains : DecodesChains specDevicePath :=
  fun m p hp => isChain_decodeNodes m 16384 0 p hp

end DevicePathChain
