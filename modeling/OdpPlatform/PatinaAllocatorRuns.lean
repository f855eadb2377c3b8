import OdpPlatform.PatinaAllocator

/-! # patina_tianocore: runs of the allocator

Every pointer in use lies in a block of its own. The word in front of an over-aligned pointer is in
that block and in nobody's bytes, so it is still the block's address when the pointer comes back. -/
namespace PatinaAllocator

open WordMemory

theorem alloc_refused (bootServices : Bool) (layout : Layout) (m : Memory) :
    (alloc bootServices (fun _ => none) layout m).ptr = 0 ∧
      (alloc bootServices (fun _ => none) layout m).memory = m := by
  unfold alloc
  by_cases hstarted : bootServices = false
  · rw [if_pos hstarted]
    exact ⟨rfl, rfl⟩
  · rw [if_neg hstarted]
    by_cases halign : layout.align ≤ 8
    · rw [if_pos halign]
      exact ⟨rfl, rfl⟩
    · rw [if_neg halign]
      cases (checkedAdd layout.size layout.align).bind fun s => checkedAdd s headerSpace with
      | none => exact ⟨rfl, rfl⟩
      | some total => exact ⟨rfl, rfl⟩

theorem checkedAdd_eq_some {a b c : UInt64} (h : checkedAdd a b = some c) :
    c.toNat = a.toNat + b.toNat := by
  unfold checkedAdd at h
  by_cases hlt : a.toNat + b.toNat < 2 ^ 64
  · rw [if_pos hlt] at h
    rw [← Option.some.inj h, UInt64.toNat_add]
    exact Nat.mod_eq_of_lt hlt
  · rw [if_neg hlt] at h
    cases h

def paddedTotal (layout : Layout) : Option UInt64 :=
  (checkedAdd layout.size layout.align).bind fun s => checkedAdd s headerSpace

theorem paddedTotal_eq_some {layout : Layout} {total : UInt64}
    (h : paddedTotal layout = some total) :
    total.toNat = layout.size.toNat + layout.align.toNat + 8 := by
  obtain ⟨s, hs, ht⟩ := Option.bind_eq_some_iff.mp h
  rw [checkedAdd_eq_some ht, checkedAdd_eq_some hs]
  rfl

theorem paddedTotal_eq_none {layout : Layout}
    (h : 2 ^ 64 ≤ layout.size.toNat + layout.align.toNat + 8) : paddedTotal layout = none := by
  cases htotal : paddedTotal layout with
  | none => rfl
  | some total =>
    have hlt := total.toNat_lt
    have heq := paddedTotal_eq_some htotal
    omega

theorem alloc_overflow (bootServices : Bool) (pool : UInt64 → Option UInt64) {layout : Layout}
    (m : Memory) (halign : ¬layout.align ≤ 8)
    (h : 2 ^ 64 ≤ layout.size.toNat + layout.align.toNat + 8) :
    alloc bootServices pool layout m = ⟨0, m, none⟩ := by
  have hnone := paddedTotal_eq_none h
  unfold paddedTotal at hnone
  unfold alloc
  by_cases hstarted : bootServices = false
  · rw [if_pos hstarted]
  · rw [if_neg hstarted, if_neg halign, hnone]

/-- The two schemes, where AllocatePool hands out the block at `raw`. -/
theorem alloc_granted {bootServices : Bool} {raw n : UInt64} {layout : Layout} {m : Memory}
    (h : (alloc bootServices (fun _ => some raw) layout m).asked = some n) :
    bootServices = true ∧
      ((layout.align ≤ 8 ∧ n = layout.size ∧
          alloc bootServices (fun _ => some raw) layout m = ⟨raw, m, some n⟩) ∨
        (¬layout.align ≤ 8 ∧ n.toNat = layout.size.toNat + layout.align.toNat + 8 ∧
          alloc bootServices (fun _ => some raw) layout m =
            ⟨alignedStart raw layout.align,
              store m (alignedStart raw layout.align - headerSpace) raw, some n⟩)) := by
  unfold alloc at h ⊢
  by_cases hstarted : bootServices = false
  · rw [if_pos hstarted] at h
    cases h
  · rw [if_neg hstarted] at h ⊢
    refine ⟨Bool.eq_true_of_not_eq_false hstarted, ?_⟩
    by_cases halign : layout.align ≤ 8
    · rw [if_pos halign] at h ⊢
      have hn : layout.size = n := Option.some.inj h
      exact Or.inl ⟨halign, hn.symm, by rw [hn]⟩
    · rw [if_neg halign] at h ⊢
      cases htotal : paddedTotal layout with
      | none =>
        unfold paddedTotal at htotal
        rw [htotal] at h
        cases h
      | some total =>
        have hsum := paddedTotal_eq_some htotal
        unfold paddedTotal at htotal
        rw [htotal] at h ⊢
        have hn : total = n := Option.some.inj h
        exact Or.inr ⟨halign, by rw [← hn, hsum], by rw [hn]⟩

theorem dealloc_small {m : Memory} {ptr : UInt64} {layout : Layout} (h : layout.align ≤ 8) :
    dealloc true m ptr layout = some ptr := by
  rw [dealloc, if_neg (by decide), if_pos h]

theorem dealloc_large {m : Memory} {ptr : UInt64} {layout : Layout} (h : ¬layout.align ≤ 8) :
    dealloc true m ptr layout = some (load m (ptr - headerSpace)) := by
  rw [dealloc, if_neg (by decide), if_neg h]

structure Placed (m : Memory) (a : Allocation) : Prop where
  nonnull : a.ptr ≠ 0
  dvd : a.layout.align.toNat ∣ a.ptr.toNat
  front : a.block.start.toNat ≤ a.ptr.toNat
  fits : a.stop ≤ a.block.stop
  whole : a.layout.align ≤ 8 → a.ptr = a.block.start
  room : ¬a.layout.align ≤ 8 → a.block.start.toNat + 8 ≤ a.ptr.toNat ∧ a.stop < a.block.stop
  backptr : ¬a.layout.align ≤ 8 → load m (a.ptr - headerSpace) = a.block.start

structure Invariant (s : State) : Prop where
  started : s.live ≠ [] → s.bootServices = true
  placed : ∀ a ∈ s.live, Placed s.memory a
  owned : ∀ a ∈ s.live, a.block ∈ s.blocks
  apart : s.blocks.Pairwise Apart
  exclusive : s.live.Pairwise fun a c => Apart a.block c.block

theorem Apart.symm {b c : Block} (h : Apart b c) : Apart c b := ⟨h.1.symm, h.2.symm⟩

instance : Std.Symm Apart := ⟨fun _ _ => Apart.symm⟩

instance : Std.Symm fun a c : Allocation => Apart a.block c.block := ⟨fun _ _ => Apart.symm⟩

theorem Allocation.ptr_le_stop (a : Allocation) : a.ptr.toNat ≤ a.stop := Nat.le_add_right _ _

theorem slot_toNat {a : Allocation} (h : 8 ≤ a.ptr.toNat) :
    (a.ptr - headerSpace).toNat = a.ptr.toNat - 8 :=
  UInt64.toNat_sub_of_le _ _ (UInt64.le_iff_toNat_le.mpr h)

/-- The word in front of an over-aligned pointer is in the pointer's block. -/
theorem Placed.slot_mem {m : Memory} {a : Allocation} (h : Placed m a)
    (halign : ¬a.layout.align ≤ 8) {i : ℕ} (hlo : a.ptr.toNat - 8 ≤ i) (hhi : i < a.ptr.toNat) :
    a.block.start.toNat ≤ i ∧ i < a.block.stop := by
  have hroom := (h.room halign).1
  have hfits := h.fits
  have hstop := a.ptr_le_stop
  omega

/-- Only the word in front matters. -/
theorem Placed.congr {m m' : Memory} {a : Allocation} (h : Placed m a)
    (hslot : ¬a.layout.align ≤ 8 → ∀ i, a.ptr.toNat - 8 ≤ i → i < a.ptr.toNat → m' i = m i) :
    Placed m' a := by
  refine ⟨h.nonnull, h.dvd, h.front, h.fits, h.whole, h.room, ?_⟩
  intro halign
  have hroom := (h.room halign).1
  have hslotNat := slot_toNat (a := a) (by omega)
  rw [← h.backptr halign]
  apply load_congr
  intro i hlo hhi
  exact hslot halign i (by omega) (by omega)

theorem Layout.dvd_eight {layout : Layout} (h : layout.align ≤ 8) : layout.align.toNat ∣ 8 := by
  obtain ⟨k, -, hpow⟩ := layout.isPow
  have hle : (2 : ℕ) ^ k ≤ 2 ^ 3 := by
    rw [← hpow]
    exact UInt64.le_iff_toNat_le.mp h
  rw [hpow]
  exact Nat.pow_dvd_pow 2 ((Nat.pow_le_pow_iff_right (by decide)).mp hle)

theorem Layout.eight_dvd {layout : Layout} (h : ¬layout.align ≤ 8) : 8 ∣ layout.align.toNat := by
  obtain ⟨k, -, hpow⟩ := layout.isPow
  have hlt : (2 : ℕ) ^ 3 < 2 ^ k := by
    rw [← hpow]
    exact Nat.lt_of_not_le fun hle => h (UInt64.le_iff_toNat_le.mpr hle)
  rw [hpow]
  exact Nat.pow_dvd_pow 2 ((Nat.pow_lt_pow_iff_right (by decide)).mp hlt).le

theorem placedIn_block {layout : Layout} {b : Block} {n : UInt64}
    (hn : n.toNat = layout.size.toNat + layout.align.toNat + 8) (hsize : n.toNat ≤ b.size) :
    PlacedIn b.start layout.align layout.size.toNat b.stop := by
  obtain ⟨k, hk, hpow⟩ := layout.isPow
  have hroom : b.start.toNat + (layout.size.toNat + layout.align.toNat + 8) ≤ b.stop := by
    rw [Block.stop]
    omega
  exact placedIn hk hpow hroom b.bounded

/-- The pointer in a block that has just been obtained. -/
theorem Placed.granted {layout : Layout} {b : Block} {n : UInt64} {bootServices : Bool} {m : Memory}
    {r : Alloc} (hr : r = alloc bootServices (fun _ => some b.start) layout m)
    (hasked : r.asked = some n) (hsize : n.toNat ≤ b.size) (hptr : r.ptr ≠ 0) :
    Placed r.memory ⟨r.ptr, layout, b⟩ := by
  have hasked' := hasked
  rw [hr] at hasked'
  obtain ⟨-, hschemes⟩ := alloc_granted hasked'
  cases hschemes with
  | inl hsmall =>
    obtain ⟨halign, hn, hres⟩ := hsmall
    rw [hr, hres] at hptr ⊢
    refine ⟨hptr, (Layout.dvd_eight halign).trans b.aligned, Nat.le_refl _, ?_, fun _ => rfl,
      fun h => absurd halign h, fun h => absurd halign h⟩
    rw [Allocation.stop, Block.stop, ← hn]
    exact Nat.add_le_add_left hsize _
  | inr hlarge =>
    obtain ⟨halign, hn, hres⟩ := hlarge
    have hplaced := placedIn_block hn hsize
    rw [hr, hres] at hptr ⊢
    have hfront : b.start.toNat ≤ (alignedStart b.start layout.align).toNat :=
      (Nat.le_add_right _ 8).trans hplaced.front
    exact ⟨hptr, hplaced.dvd, hfront, hplaced.fits.le, fun h => absurd h halign,
      fun _ => ⟨hplaced.front, hplaced.fits⟩, fun _ => load_store m _ _⟩

/-- The bytes that a call changes are all in the new block. -/
theorem alloc_memory_of_not_mem {layout : Layout} {b : Block} {n : UInt64} {bootServices : Bool}
    {m : Memory} {r : Alloc} (hr : r = alloc bootServices (fun _ => some b.start) layout m)
    (hasked : r.asked = some n) (hsize : n.toNat ≤ b.size) {i : ℕ}
    (hi : i < b.start.toNat ∨ b.stop ≤ i) : r.memory i = m i := by
  rw [hr] at hasked
  obtain ⟨-, hschemes⟩ := alloc_granted hasked
  cases hschemes with
  | inl hsmall =>
    obtain ⟨-, -, hres⟩ := hsmall
    rw [hr, hres]
  | inr hlarge =>
    obtain ⟨-, hn, hres⟩ := hlarge
    have hplaced := placedIn_block hn hsize
    have hslot := hplaced.slot
    have hfront := hplaced.front
    have hfits := hplaced.fits
    have hout : ¬((alignedStart b.start layout.align - headerSpace).toNat ≤ i ∧
        i < (alignedStart b.start layout.align - headerSpace).toNat + 8) := by omega
    rw [hr, hres]
    exact if_neg hout

namespace Invariant

theorem granted {s : State} {layout : Layout} {b : Block} {n : UInt64} {r : Alloc}
    (hinv : Invariant s) (hr : r = alloc s.bootServices (fun _ => some b.start) layout s.memory)
    (hasked : r.asked = some n) (hsize : n.toNat ≤ b.size) (hfresh : ∀ c ∈ s.blocks, Apart b c) :
    Invariant { s with
      memory := r.memory
      blocks := b :: s.blocks
      live := if r.ptr = 0 then s.live else ⟨r.ptr, layout, b⟩ :: s.live } := by
  have hstarted : s.bootServices = true := by
    rw [hr] at hasked
    exact (alloc_granted hasked).1
  have hold : ∀ a ∈ s.live, Placed r.memory a := by
    intro a ha
    have hplaced := hinv.placed a ha
    have happart := (hfresh a.block (hinv.owned a ha)).2
    apply hplaced.congr
    intro halign i hlo hhi
    have hslot := hplaced.slot_mem halign hlo hhi
    exact alloc_memory_of_not_mem hr hasked hsize (by omega)
  have hblocks : (b :: s.blocks).Pairwise Apart := List.pairwise_cons.mpr ⟨hfresh, hinv.apart⟩
  have howned : ∀ a ∈ s.live, a.block ∈ b :: s.blocks :=
    fun a ha => List.mem_cons_of_mem b (hinv.owned a ha)
  by_cases hptr : r.ptr = 0
  · rw [if_pos hptr]
    exact ⟨fun _ => hstarted, hold, howned, hblocks, hinv.exclusive⟩
  · rw [if_neg hptr]
    refine ⟨fun _ => hstarted, ?_, ?_, hblocks, ?_⟩
    · exact List.forall_mem_cons.mpr ⟨Placed.granted hr hasked hsize hptr, hold⟩
    · exact List.forall_mem_cons.mpr ⟨List.mem_cons_self, howned⟩
    · exact List.pairwise_cons.mpr ⟨fun c hc => hfresh c.block (hinv.owned c hc), hinv.exclusive⟩

/-- What comes back to the pool. -/
theorem dealloc_eq {s : State} (hinv : Invariant s) {a : Allocation} (ha : a ∈ s.live) :
    dealloc s.bootServices s.memory a.ptr a.layout = some a.block.start := by
  have hplaced := hinv.placed a ha
  rw [hinv.started (List.ne_nil_of_mem ha)]
  by_cases halign : a.layout.align ≤ 8
  · rw [dealloc_small halign, hplaced.whole halign]
  · rw [dealloc_large halign, hplaced.backptr halign]

theorem eq_of_start_eq {s : State} (hinv : Invariant s) {b c : Block} (hb : b ∈ s.blocks)
    (hc : c ∈ s.blocks) (h : b.start = c.start) : b = c := by
  by_contra hne
  exact (hinv.apart.forall hb hc hne).1 h

theorem mem_freePool {s : State} (hinv : Invariant s) {b : Block} (hb : b ∈ s.blocks) (c : Block) :
    c ∈ freePool b.start s.blocks ↔ c ∈ s.blocks ∧ c ≠ b := by
  rw [freePool, List.mem_filter, decide_eq_true_eq]
  constructor
  · intro ⟨hc, hne⟩
    exact ⟨hc, fun heq => hne (congrArg Block.start heq)⟩
  · intro ⟨hc, hne⟩
    exact ⟨hc, fun heq => hne (hinv.eq_of_start_eq hc hb heq)⟩

theorem released {s : State} {before after : List Allocation} {a : Allocation}
    (hinv : Invariant s) (hlive : s.live = before ++ a :: after) :
    Invariant { s with
      blocks := ((dealloc s.bootServices s.memory a.ptr a.layout).map
        fun addr => freePool addr s.blocks).getD s.blocks
      live := before ++ after } := by
  have ha : a ∈ s.live := by
    rw [hlive]
    exact List.mem_append_right _ List.mem_cons_self
  have hsub : (before ++ after).Sublist s.live := by
    rw [hlive]
    exact List.Sublist.append_left (List.sublist_cons_self a after) before
  have hothers : ∀ c ∈ before ++ after, Apart a.block c.block := by
    have hexclusive := hinv.exclusive
    rw [hlive] at hexclusive
    intro c hc
    exact (List.pairwise_cons.mp ((List.pairwise_middle Apart.symm).mp hexclusive)).1 c hc
  rw [hinv.dealloc_eq ha, Option.map_some, Option.getD_some]
  refine ⟨fun _ => hinv.started (List.ne_nil_of_mem ha), ?_, ?_, ?_, ?_⟩
  · exact fun c hc => hinv.placed c (hsub.subset hc)
  · intro c hc
    have hne : c.block ≠ a.block := fun heq => (hothers c hc).1 (congrArg Block.start heq.symm)
    exact (hinv.mem_freePool (hinv.owned a ha) c.block).mpr ⟨hinv.owned c (hsub.subset hc), hne⟩
  · exact hinv.apart.sublist List.filter_sublist
  · exact hinv.exclusive.sublist hsub

/-- Each pointer's bytes are in its own block. -/
theorem disjoint {s : State} (hinv : Invariant s) {a c : Allocation}
    (hc : c ∈ s.live) (h : Apart a.block c.block) :
    a.block.stop ≤ c.ptr.toNat ∨ c.stop ≤ a.block.start.toNat := by
  have hfits := (hinv.placed c hc).fits
  have hfront := (hinv.placed c hc).front
  cases h.2 with
  | inl hbelow => exact Or.inl (hbelow.trans hfront)
  | inr habove => exact Or.inr (hfits.trans habove)

/-- Not even an empty allocation's pointer is in another's block. -/
theorem ptr_not_mem {s : State} (hinv : Invariant s) {a c : Allocation} (hc : c ∈ s.live)
    (h : Apart a.block c.block) :
    ¬(a.block.start.toNat ≤ c.ptr.toNat ∧ c.ptr.toNat < a.block.stop) := by
  have hdisjoint := hinv.disjoint hc h
  have hplaced := hinv.placed c hc
  have hstop := c.ptr_le_stop
  by_cases halign : c.layout.align ≤ 8
  · have hne : c.ptr.toNat ≠ a.block.start.toNat := by
      rw [hplaced.whole halign]
      exact fun heq => h.1 (UInt64.toNat_inj.mp heq.symm)
    omega
  · have hroom := hplaced.room halign
    have hblocks := h.2
    omega

/-- The word in front of a pointer belongs to no user. -/
theorem slot_free {s : State} (hinv : Invariant s) {a c : Allocation} (ha : a ∈ s.live)
    (hc : c ∈ s.live) (halign : ¬a.layout.align ≤ 8) :
    c.stop ≤ a.ptr.toNat - 8 ∨ a.ptr.toNat ≤ c.ptr.toNat := by
  have hplaced := hinv.placed a ha
  have hroom := (hplaced.room halign).1
  have hstop := a.ptr_le_stop
  have hfits := hplaced.fits
  by_cases heq : a = c
  · exact Or.inr (heq ▸ Nat.le_refl _)
  · have happart := hinv.disjoint hc (hinv.exclusive.forall ha hc heq)
    omega

theorem written {s : State} {m : Memory} (hinv : Invariant s)
    (hkeeps : ∀ i, (∃ b ∈ s.blocks, b.start.toNat ≤ i ∧ i < b.stop) →
      (∀ a ∈ s.live, ¬(a.ptr.toNat ≤ i ∧ i < a.stop)) → m i = s.memory i) :
    Invariant { s with memory := m } := by
  refine ⟨hinv.started, ?_, hinv.owned, hinv.apart, hinv.exclusive⟩
  intro a ha
  have hplaced := hinv.placed a ha
  apply hplaced.congr
  intro halign i hlo hhi
  apply hkeeps i
  · exact ⟨a.block, hinv.owned a ha, hplaced.slot_mem halign hlo hhi⟩
  · intro c hc hin
    have hfree := hinv.slot_free ha hc halign
    omega

theorem step {s t : State} (hinv : Invariant s) (h : Step s t) : Invariant t := by
  cases h with
  | init => exact ⟨fun _ => rfl, hinv.placed, hinv.owned, hinv.apart, hinv.exclusive⟩
  | refused layout =>
    rw [(alloc_refused s.bootServices layout s.memory).2]
    exact hinv
  | granted hr hasked hsize hfresh => exact hinv.granted hr hasked hsize hfresh
  | released hlive => exact hinv.released hlive
  | written hkeeps => exact hinv.written hkeeps

theorem reachable {s : State} (h : Reachable s) : Invariant s := by
  induction h with
  | start bootServices m =>
    exact ⟨fun hne => absurd rfl hne, List.forall_mem_nil _, List.forall_mem_nil _,
      List.Pairwise.nil, List.Pairwise.nil⟩
  | step _ hstep ih => exact ih.step hstep

end Invariant

structure Sound (s : State) : Prop where
  aligned : ∀ a ∈ s.live, a.ptr ≠ 0 ∧ a.layout.align.toNat ∣ a.ptr.toNat
  inside : ∀ a ∈ s.live,
    a.block ∈ s.blocks ∧ a.block.start.toNat ≤ a.ptr.toNat ∧ a.stop ≤ a.block.stop
  slot : ∀ a ∈ s.live, 8 < a.layout.align →
    (a.ptr - headerSpace).toNat + 8 = a.ptr.toNat ∧ 8 ∣ (a.ptr - headerSpace).toNat ∧
      a.block.start.toNat ≤ (a.ptr - headerSpace).toNat ∧ a.ptr.toNat ≤ a.block.stop ∧
      ∀ c ∈ s.live, c.stop ≤ (a.ptr - headerSpace).toNat ∨ a.ptr.toNat ≤ c.ptr.toNat
  disjoint : s.live.Pairwise fun a c => a.stop ≤ c.ptr.toNat ∨ c.stop ≤ a.ptr.toNat
  returned : ∀ a ∈ s.live, dealloc s.bootServices s.memory a.ptr a.layout = some a.block.start
  freed : ∀ a ∈ s.live, ∀ c, c ∈ freePool a.block.start s.blocks ↔ c ∈ s.blocks ∧ c ≠ a.block
  alone : s.live.Pairwise fun a c =>
    ¬(a.block.start.toNat ≤ c.ptr.toNat ∧ c.ptr.toNat < a.block.stop) ∧
      ¬(c.block.start.toNat ≤ a.ptr.toNat ∧ a.ptr.toNat < c.block.stop)

theorem Invariant.sound {s : State} (hinv : Invariant s) : Sound s where
  aligned := fun a ha => ⟨(hinv.placed a ha).nonnull, (hinv.placed a ha).dvd⟩
  inside := fun a ha => ⟨hinv.owned a ha, (hinv.placed a ha).front, (hinv.placed a ha).fits⟩
  slot := by
    intro a ha hlarge
    have halign : ¬a.layout.align ≤ 8 := UInt64.not_le.mpr hlarge
    have hplaced := hinv.placed a ha
    have hroom := hplaced.room halign
    have hstop := a.ptr_le_stop
    have hslot := slot_toNat (a := a) (by omega)
    have hdvd := (Layout.eight_dvd halign).trans hplaced.dvd
    have hfree : ∀ c ∈ s.live, c.stop ≤ a.ptr.toNat - 8 ∨ a.ptr.toNat ≤ c.ptr.toNat :=
      fun c hc => hinv.slot_free ha hc halign
    rw [hslot]
    exact ⟨by omega, by omega, by omega, by omega, hfree⟩
  disjoint := by
    apply hinv.exclusive.imp_of_mem
    intro a c ha hc h
    have hfront := (hinv.placed a ha).front
    have hfits := (hinv.placed a ha).fits
    have hapart := hinv.disjoint hc h
    omega
  returned := fun a ha => hinv.dealloc_eq ha
  freed := fun a ha => hinv.mem_freePool (hinv.owned a ha)
  alone := by
    apply hinv.exclusive.imp_of_mem
    intro a c ha hc h
    exact ⟨hinv.ptr_not_mem hc h, hinv.ptr_not_mem ha h.symm⟩

/-- Placement and release, over every run. -/
theorem places_and_releases :
    (∀ s, Reachable s → Sound s) ∧
    (∀ bootServices layout m, (alloc bootServices (fun _ => none) layout m).ptr = 0) ∧
    (∀ bootServices pool (layout : Layout) m, 8 < layout.align →
      2 ^ 64 ≤ layout.size.toNat + layout.align.toNat + 8 →
        alloc bootServices pool layout m = ⟨0, m, none⟩) ∧
    ∀ bootServices (layout : Layout) (b : Block) m n, 8 < layout.align →
      (alloc bootServices (fun _ => some b.start) layout m).asked = some n → n.toNat ≤ b.size →
        PlacedIn b.start layout.align layout.size.toNat b.stop := by
  refine ⟨fun s hs => (Invariant.reachable hs).sound, ?_, ?_, ?_⟩
  · exact fun bootServices layout m => (alloc_refused bootServices layout m).1
  · intro bootServices pool layout m hlarge htotal
    exact alloc_overflow bootServices pool m (UInt64.not_le.mpr hlarge) htotal
  · intro bootServices layout b m n hlarge hasked hsize
    obtain ⟨-, hschemes⟩ := alloc_granted hasked
    cases hschemes with
    | inl hsmall => exact absurd hsmall.1 (UInt64.not_le.mpr hlarge)
    | inr hpadded => exact placedIn_block hpadded.2.1 hsize

/-- 24 bytes at an alignment of 16, in a block that is aligned to 8 only. -/
def lineLayout : Layout := ⟨24, 16, 4, by decide, rfl⟩

def oddBlock : Block := ⟨0x1008, 48, by decide, by decide⟩

def wordLayout : Layout := ⟨8, 8, 3, by decide, rfl⟩

def wordBlock : Block := ⟨0x2000, 8, by decide, by decide⟩

def bothLive : State where
  bootServices := true
  memory := store (fun _ => 0) 0x1008 0x1008
  blocks := [wordBlock, oddBlock]
  live := [⟨0x2000, wordLayout, wordBlock⟩, ⟨0x1010, lineLayout, oddBlock⟩]

/-- Two allocations, of which the first is released. -/
theorem oddBlock_line :
    Sound bothLive ∧
      Sound { bothLive with
        blocks := [wordBlock]
        live := [⟨0x2000, wordLayout, wordBlock⟩] } := by
  have hline := @Step.granted ⟨true, fun _ => 0, [], []⟩ lineLayout oddBlock 48 _ rfl rfl
    (by decide) (List.forall_mem_nil _)
  have hfresh : ∀ c ∈ [oddBlock], Apart wordBlock c := by
    intro c hc
    rw [List.mem_singleton.mp hc]
    exact ⟨by decide, .inr (by decide)⟩
  have hword := @Step.granted ⟨true, store (fun _ => 0) 0x1008 0x1008, [oddBlock],
    [⟨0x1010, lineLayout, oddBlock⟩]⟩ wordLayout wordBlock 8 _ rfl rfl (by decide) hfresh
  have hreachable : Reachable bothLive := ((Reachable.start true _).step hline).step hword
  have hsound := places_and_releases.1 _ hreachable
  have hrelease := @Step.released bothLive [⟨0x2000, wordLayout, wordBlock⟩] []
    ⟨0x1010, lineLayout, oddBlock⟩ rfl
  rw [hsound.returned _ (List.mem_cons_of_mem _ List.mem_cons_self)] at hrelease
  exact ⟨hsound, places_and_releases.1 _ (hreachable.step hrelease)⟩

end PatinaAllocator
