import Mathlib.Data.List.Pairwise
import OdpPlatform.WordMemory

/-! # patina_tianocore: the global allocator

Two schemes share one way back to the pool: up to an alignment of 8 the pool's own pointer is
returned, above it a pointer inside the block, behind a word that holds the block's address. -/
namespace PatinaAllocator

open WordMemory

/-! ## boot_services.rs -/

structure Layout where
  size : UInt64
  align : UInt64
  isPow : ∃ k < 64, align.toNat = 2 ^ k

/-- `size_of::<*mut c_void>()` -/
def headerSpace : UInt64 := 8

def checkedAdd (a b : UInt64) : Option UInt64 :=
  if a.toNat + b.toNat < 2 ^ 64 then some (a + b) else none

structure Alloc where
  ptr : UInt64
  memory : Memory
  asked : Option UInt64

def alignedStart (raw align : UInt64) : UInt64 := (raw + headerSpace + align - 1) &&& ~~~(align - 1)

/-- `pool` is AllocatePool, `none` a status other than success. -/
def alloc (bootServices : Bool) (pool : UInt64 → Option UInt64) (layout : Layout) (m : Memory) :
    Alloc :=
  if bootServices = false then ⟨0, m, none⟩
  else if layout.align ≤ 8 then
    match pool layout.size with
    | none => ⟨0, m, some layout.size⟩
    | some ptr => ⟨ptr, m, some layout.size⟩
  else
    match (checkedAdd layout.size layout.align).bind fun s => checkedAdd s headerSpace with
    | none => ⟨0, m, none⟩
    | some total =>
      match pool total with
      | none => ⟨0, m, some total⟩
      | some raw =>
        let aligned := alignedStart raw layout.align
        ⟨aligned, store m (aligned - headerSpace) raw, some total⟩

def dealloc (bootServices : Bool) (m : Memory) (ptr : UInt64) (layout : Layout) : Option UInt64 :=
  if bootServices = false then none
  else if layout.align ≤ 8 then some ptr
  else some (load m (ptr - headerSpace))

structure Block where
  start : UInt64
  size : ℕ
  aligned : 8 ∣ start.toNat
  bounded : start.toNat + size < 2 ^ 64

def Block.stop (b : Block) : ℕ := b.start.toNat + b.size

/-- An empty block too has an address of its own. -/
def Apart (b c : Block) : Prop :=
  b.start ≠ c.start ∧ (b.stop ≤ c.start.toNat ∨ c.stop ≤ b.start.toNat)

structure Allocation where
  ptr : UInt64
  layout : Layout
  block : Block

def Allocation.stop (a : Allocation) : ℕ := a.ptr.toNat + a.layout.size.toNat

structure State where
  bootServices : Bool
  memory : Memory
  blocks : List Block
  live : List Allocation

def freePool (addr : UInt64) (blocks : List Block) : List Block :=
  blocks.filter fun b => b.start ≠ addr

inductive Step : State → State → Prop where
  | init (s : State) : Step s { s with bootServices := true }
  /-- AllocatePool fails, or is not called. -/
  | refused (s : State) (layout : Layout) :
      Step s { s with memory := (alloc s.bootServices (fun _ => none) layout s.memory).memory }
  | granted {s : State} {layout : Layout} {b : Block} {n : UInt64} {r : Alloc}
      (hr : r = alloc s.bootServices (fun _ => some b.start) layout s.memory)
      (hasked : r.asked = some n) (hsize : n.toNat ≤ b.size) (hfresh : ∀ c ∈ s.blocks, Apart b c) :
      Step s { s with
        memory := r.memory
        blocks := b :: s.blocks
        live := if r.ptr = 0 then s.live else ⟨r.ptr, layout, b⟩ :: s.live }
  | released {s : State} {before after : List Allocation} {a : Allocation}
      (hlive : s.live = before ++ a :: after) :
      Step s { s with
        blocks := ((dealloc s.bootServices s.memory a.ptr a.layout).map
          fun addr => freePool addr s.blocks).getD s.blocks
        live := before ++ after }
  /-- Users write their own bytes, the firmware whatever is in no block. -/
  | written {s : State} {m : Memory}
      (hkeeps : ∀ i, (∃ b ∈ s.blocks, b.start.toNat ≤ i ∧ i < b.stop) →
        (∀ a ∈ s.live, ¬(a.ptr.toNat ≤ i ∧ i < a.stop)) → m i = s.memory i) :
      Step s { s with memory := m }

inductive Reachable : State → Prop where
  | start (bootServices : Bool) (m : Memory) : Reachable ⟨bootServices, m, [], []⟩
  | step {s t : State} : Reachable s → Step s t → Reachable t

/-- Where an over-aligned pointer lies in its block; no sum on the way wraps. -/
structure PlacedIn (raw align : UInt64) (size stop : ℕ) : Prop where
  sum : (raw + headerSpace).toNat = raw.toNat + 8
  padded : (raw + headerSpace + align).toNat = raw.toNat + 8 + align.toNat
  last : (raw + headerSpace + align - 1).toNat = raw.toNat + 8 + align.toNat - 1
  slot : (alignedStart raw align - headerSpace).toNat = (alignedStart raw align).toNat - 8
  front : raw.toNat + 8 ≤ (alignedStart raw align).toNat
  dvd : align.toNat ∣ (alignedStart raw align).toNat
  fits : (alignedStart raw align).toNat + size < stop

theorem placedIn {raw align : UInt64} {size stop k : ℕ} (hk : k < 64) (halign : align.toNat = 2 ^ k)
    (hroom : raw.toNat + (size + align.toNat + 8) ≤ stop) (hstop : stop < 2 ^ 64) :
    PlacedIn raw align size stop := by
  have hpos : 0 < align.toNat := by
    rw [halign]
    exact Nat.pow_pos (by decide)
  have hheader : headerSpace.toNat = 8 := rfl
  have hone : (1 : UInt64).toNat = 1 := rfl
  have hsum : (raw + headerSpace).toNat = raw.toNat + 8 := by
    rw [UInt64.toNat_add, hheader]
    exact Nat.mod_eq_of_lt (by omega)
  have hpadded : (raw + headerSpace + align).toNat = raw.toNat + 8 + align.toNat := by
    rw [UInt64.toNat_add, hsum]
    exact Nat.mod_eq_of_lt (by omega)
  have hlast : (raw + headerSpace + align - 1).toNat = raw.toNat + 8 + align.toNat - 1 := by
    rw [UInt64.toNat_sub_of_le _ _ (UInt64.le_iff_toNat_le.mpr (by omega)), hpadded, hone]
  have hmask : (align - 1).toNat = 2 ^ k - 1 := by
    rw [UInt64.toNat_sub_of_le _ _ (UInt64.le_iff_toNat_le.mpr (by omega)), halign, hone]
  have hstart : (alignedStart raw align).toNat =
      (raw.toNat + 8 + align.toNat - 1) / align.toNat * align.toNat := by
    rw [alignedStart, toNat_and_not_mask hk hmask, hlast, halign]
  have hfront : raw.toNat + 8 ≤ (alignedStart raw align).toNat := by
    have hmod := Nat.mod_lt (raw.toNat + 8 + align.toNat - 1) hpos
    have hdiv := Nat.div_add_mod' (raw.toNat + 8 + align.toNat - 1) align.toNat
    omega
  have hle : (alignedStart raw align).toNat ≤ raw.toNat + 8 + align.toNat - 1 := by
    rw [hstart]
    exact Nat.div_mul_le_self _ _
  refine ⟨hsum, hpadded, hlast, ?_, hfront, ?_, by omega⟩
  · exact UInt64.toNat_sub_of_le _ _ (UInt64.le_iff_toNat_le.mpr (by omega))
  · rw [hstart]
    exact Nat.dvd_mul_left _ _

end PatinaAllocator
