import OdpPlatform.BootPartitionLayout
import OdpPlatform.InteractionTraces

/-! # read_bp_via_log_page tiles its destination

The ranges are decoded from the command dwords; what came back so far is put where the ranges
say, and each command must find the next slice of that. -/
namespace PatinaLogPageTiling

open ByteBuffer InteractionProgram InteractionContract InteractionTraces FirmwareServices
open BootPartitionLayout PatinaBpLogPage

def tileStep (st : ℕ × Bytes) (e : Event Answer) : ℕ × Bytes :=
  match e with
  | ⟨.passThru p, some c⟩ =>
    (st.1 + logPageLength p.command, splice st.2 st.1 (received p c))
  | _ => st

def tiled (dest : Bytes) (τ : FirmwareTrace) : ℕ × Bytes := τ.foldl tileStep (0, dest)

@[simp] theorem tiled_nil (dest : Bytes) : tiled dest [] = (0, dest) := rfl

theorem tiled_snoc (dest : Bytes) (τ : FirmwareTrace) (e : Event Answer) :
    tiled dest (τ ++ [e]) = tileStep (tiled dest τ) e := by
  rw [tiled, List.foldl_append]
  rfl

structure ReadsSlice (bpId : UInt8) (chunk : ℕ) (dest : Bytes) (off : ℕ) (p : Packet) : Prop where
  start : logPageOffset p.command = 16 + off
  bounded : logPageLength p.command ≤ chunk
  inside : off + logPageLength p.command ≤ dest.length
  slice : p.buffer = window dest off (logPageLength p.command)
  transfer : p.transferLength = logPageLength p.command
  bpid : logPageBpid p.command = bpId.toUInt32
  numd : 1 ≤ p.buffer.length / 4

structure LogPageLaw (bpId : UInt8) (chunk : ℕ) (dest : Bytes) (τ : FirmwareTrace)
    (x : Option (Except EfiError Bytes)) : Prop where
  commands : Guarded (fun pre call => ∃ p, call = .passThru p ∧
    ReadsSlice bpId chunk (tiled dest pre).2 (tiled dest pre).1 p) τ
  failure : ∀ pre p c post, τ = pre ++ ⟨.passThru p, some c⟩ :: post → c.status ≠ .success →
    post = [] ∧ x = some (.error ⟨c.status⟩)
  success : ∀ result, x = some (.ok result) → tiled dest τ = (dest.length, result)
  error : ∀ e, x = some (.error e) → ∃ pre p c, τ = pre ++ [⟨.passThru p, some c⟩] ∧
    c.status ≠ .success ∧ e = ⟨c.status⟩
  terminates : x = none → Unanswered τ

variable {bpId : UInt8} {chunk : ℕ}

theorem readsSlice_packet (hbp : bpId.toNat < 2 ^ 7) {dest : Bytes} {off n : ℕ}
    (hchunk : n ≤ chunk) (hinside : off + n ≤ dest.length) (hoff : 16 + off < 2 ^ 64)
    (hpos : 0 < n) (hdword : n % 4 = 0) (hlt : n < 2 ^ 32) :
    ReadsSlice bpId chunk dest off (logPagePacket bpId off (window dest off n)) := by
  have hslice : (window dest off n).length = n := by
    rw [length_window]
    omega
  have hreads : Reads (logPagePacket bpId off (window dest off n)).command bpId.toUInt32 off
      (window dest off n).length :=
    logPagePacket_reads hbp hoff (by omega) (by omega) (by omega)
  have hlength := hreads.length
  rw [hslice] at hlength
  refine ⟨hreads.offset, ?_, ?_, ?_, ?_, hreads.bpid, ?_⟩
  · rw [hlength]
    exact hchunk
  · rw [hlength]
    exact hinside
  · rw [hlength]
    rfl
  · simp only [logPagePacket, hslice] at hlength ⊢
    rw [hlength, UInt32.toNat_ofNat', Nat.mod_eq_of_lt hlt]
  · change 1 ≤ (window dest off n).length / 4
    omega

theorem length_received {p : Packet} (htransfer : p.transferLength ≤ p.buffer.length)
    (c : Completion) : (received p c).length = p.buffer.length := by
  apply length_splice
  rw [List.length_take]
  omega

theorem ReadsSlice.length_buffer {dest : Bytes} {off : ℕ} {p : Packet}
    (hp : ReadsSlice bpId chunk dest off p) : p.buffer.length = logPageLength p.command := by
  have hinside := hp.inside
  rw [hp.slice, length_window]
  omega

/-- The loop invariant: every command so far read its slice and succeeded. -/
structure TilingInv (bpId : UInt8) (chunk : ℕ) (dest : Bytes) (τ : FirmwareTrace) (off : ℕ)
    (dest' : Bytes) : Prop where
  commands : Guarded (fun pre call => ∃ p, call = .passThru p ∧
    ReadsSlice bpId chunk (tiled dest pre).2 (tiled dest pre).1 p) τ
  succeeded : ∀ p c, (⟨.passThru p, some c⟩ : Event Answer) ∈ τ → c.status = .success
  reached : tiled dest τ = (off, dest')
  length : dest'.length = dest.length
  within : off ≤ dest.length
  dwords : off % 4 = 0

theorem TilingInv.start (bpId : UInt8) (chunk : ℕ) (dest : Bytes) :
    TilingInv bpId chunk dest [] 0 dest where
  commands := guarded_nil _
  succeeded _ _ he := absurd he List.not_mem_nil
  reached := rfl
  length := rfl
  within := Nat.zero_le _
  dwords := rfl

section Loop

variable {dest dest' : Bytes} {τ : FirmwareTrace} {off : ℕ} {p : Packet}

theorem TilingInv.snoc_commands (hτ : TilingInv bpId chunk dest τ off dest')
    (hp : ReadsSlice bpId chunk dest' off p) (a : Option Completion) :
    Guarded (fun pre call => ∃ p, call = .passThru p ∧
      ReadsSlice bpId chunk (tiled dest pre).2 (tiled dest pre).1 p)
      (τ ++ [⟨.passThru p, a⟩]) := by
  apply hτ.commands.snoc
  rw [hτ.reached]
  exact ⟨p, rfl, hp⟩

theorem TilingInv.next (hτ : TilingInv bpId chunk dest τ off dest')
    (hp : ReadsSlice bpId chunk dest' off p) (hdword : logPageLength p.command % 4 = 0)
    {c : Completion} (hc : c.status = .success) :
    TilingInv bpId chunk dest (τ ++ [⟨.passThru p, some c⟩]) (off + logPageLength p.command)
      (splice dest' off (received p c)) where
  commands := hτ.snoc_commands hp (some c)
  succeeded q c' he := by
    rcases List.mem_append.mp he with he | he
    · exact hτ.succeeded q c' he
    · cases List.mem_singleton.mp he
      exact hc
  reached := by
    rw [tiled_snoc, hτ.reached]
    rfl
  length := by
    have hinside := hp.inside
    have hbuffer := hp.length_buffer
    have htransfer := hp.transfer
    rw [length_splice, hτ.length]
    rw [length_received (by omega)]
    omega
  within := by
    have hinside := hp.inside
    rw [hτ.length] at hinside
    exact hinside
  dwords := by
    have hbefore := hτ.dwords
    omega

theorem TilingInv.success_of_split (hτ : TilingInv bpId chunk dest τ off dest')
    {pre post : FirmwareTrace} {q : Packet} {c : Completion}
    (hsplit : τ = pre ++ ⟨.passThru q, some c⟩ :: post) : c.status = .success := by
  apply hτ.succeeded q c
  rw [hsplit]
  exact List.mem_append_right pre List.mem_cons_self

theorem TilingInv.law_done (hτ : TilingInv bpId chunk dest τ off dest')
    (hend : dest.length ≤ off) : LogPageLaw bpId chunk dest τ (some (.ok dest')) where
  commands := hτ.commands
  failure pre q c post hsplit hc := absurd (hτ.success_of_split hsplit) hc
  success result hresult := by
    cases hresult
    rw [hτ.reached, Nat.le_antisymm hτ.within hend]
  error := nofun
  terminates := nofun

theorem TilingInv.law_unanswered (hτ : TilingInv bpId chunk dest τ off dest')
    (hp : ReadsSlice bpId chunk dest' off p) :
    LogPageLaw bpId chunk dest (τ ++ [⟨.passThru p, none⟩]) none where
  commands := hτ.snoc_commands hp none
  failure pre q c post hsplit hc := by
    rcases split_snoc hsplit with ⟨-, he, -⟩ | ⟨post', -, hbefore⟩
    · cases he
    · exact absurd (hτ.success_of_split hbefore) hc
  success := nofun
  error := nofun
  terminates _ := ⟨τ, .passThru p, rfl⟩

theorem TilingInv.law_failed (hτ : TilingInv bpId chunk dest τ off dest')
    (hp : ReadsSlice bpId chunk dest' off p) {c : Completion} (hc : c.status ≠ .success) :
    LogPageLaw bpId chunk dest (τ ++ [⟨.passThru p, some c⟩]) (some (.error ⟨c.status⟩)) where
  commands := hτ.snoc_commands hp (some c)
  failure pre q c' post hsplit hc' := by
    rcases split_snoc hsplit with ⟨-, he, rfl⟩ | ⟨post', -, hbefore⟩
    · cases he
      exact ⟨rfl, rfl⟩
    · exact absurd (hτ.success_of_split hbefore) hc'
  success := nofun
  error e he := by
    cases he
    exact ⟨τ, p, c, rfl, hc, rfl⟩
  terminates := nofun

end Loop

theorem ends_readBpLoop (hbp : bpId.toNat < 2 ^ 7) (hpos : 0 < chunk) (hchunk : chunk % 4 = 0)
    {dest : Bytes} (hdest : dest.length % 4 = 0) (hlt : min chunk dest.length < 2 ^ 32)
    (hlpol : dest.length < 2 ^ 63) (fuel : ℕ) :
    ∀ τ off dest', TilingInv bpId chunk dest τ off dest' → dest.length - off < fuel →
      Ends (LogPageLaw bpId chunk dest) (readBpLoop bpId chunk fuel off dest').run τ := by
  induction fuel with
  | zero => intros; omega
  | succ fuel ih =>
    intro τ off dest' hτ hfuel
    simp only [readBpLoop]
    have hlength := hτ.length
    have hdwords := hτ.dwords
    by_cases hmore : off < dest'.length
    · rw [if_pos hmore, Program.run_lift_bind, ask, Program.call_bind]
      have hp : ReadsSlice bpId chunk dest' off (logPagePacket bpId off
          (window dest' off (min chunk (dest'.length - off)))) :=
        readsSlice_packet hbp (by omega) (by omega) (by omega) (by omega) (by omega) (by omega)
      have hn : logPageLength (logPagePacket bpId off
          (window dest' off (min chunk (dest'.length - off)))).command =
          min chunk (dest'.length - off) := by
        rw [← hp.length_buffer]
        change (window dest' off _).length = _
        rw [length_window]
        omega
      refine ⟨hτ.law_unanswered hp, fun c => ?_⟩
      dsimp only
      by_cases hc : c.status = .success
      · rw [if_neg (not_not.mpr hc)]
        have hnext := hτ.next hp (by omega) hc
        rw [hn] at hnext
        exact ih _ _ _ hnext (by omega)
      · rw [if_pos hc]
        exact hτ.law_failed hp hc
    · rw [if_neg hmore]
      exact hτ.law_done (by omega)

theorem readBp_law (hbp : bpId.toNat < 2 ^ 7) (hsizes : 4 ≤ chunk ∧ chunk % 4 = 0)
    (dest : Slice) (hdest : dest.bytes.length % 4 = 0)
    (hlt : min chunk dest.bytes.length < 2 ^ 32) (env : FirmwareEnv) :
    LogPageLaw bpId chunk dest.bytes ((readBpViaLogPage bpId chunk dest.bytes).run.run env []).1
      ((readBpViaLogPage bpId chunk dest.bytes).run.run env []).2 := by
  have hguard : ¬(chunk < 4 ∨ chunk % 4 ≠ 0 ∨ dest.bytes.length % 4 ≠ 0) := by omega
  rw [readBpViaLogPage, if_neg hguard]
  apply Ends.sound
  exact ends_readBpLoop hbp (by omega) hsizes.2 hdest hlt dest.size _ _ _ _
    (TilingInv.start bpId chunk dest.bytes) (by omega)

/-- A read of 4 GiB or more does not fit the transfer length. -/
theorem not_readsSlice_of_large {dest : Bytes} {off n : ℕ} (hlarge : 2 ^ 32 ≤ n)
    (hinside : off + n ≤ dest.length) :
    ¬ReadsSlice bpId chunk dest off (logPagePacket bpId off (window dest off n)) := by
  intro hp
  have hbuffer := hp.length_buffer
  rw [← hp.transfer] at hbuffer
  have hslice : (window dest off n).length = n := by
    rw [length_window]
    omega
  have hcut : (UInt32.ofNat (window dest off n).length).toNat < 2 ^ 32 := UInt32.toNat_lt _
  change (window dest off n).length = (UInt32.ofNat (window dest off n).length).toNat at hbuffer
  omega

theorem not_readBp_law (hsizes : 4 ≤ chunk ∧ chunk % 4 = 0) {dest : Bytes}
    (hdest : dest.length % 4 = 0) (hlarge : 2 ^ 32 ≤ min chunk dest.length) (env : FirmwareEnv) :
    ¬LogPageLaw bpId chunk dest ((readBpViaLogPage bpId chunk dest).run.run env []).1
      ((readBpViaLogPage bpId chunk dest).run.run env []).2 := by
  have hguard : ¬(chunk < 4 ∨ chunk % 4 ≠ 0 ∨ dest.length % 4 ≠ 0) := by omega
  rw [readBpViaLogPage, if_neg hguard, readBpLoop, if_pos (by omega), Program.run_lift_bind, ask,
    Program.call_bind]
  obtain ⟨a, post, hfirst⟩ := Program.run_ask_first env []
    (.passThru (logPagePacket bpId 0 (window dest 0 (min chunk (dest.length - 0))))) _
  intro hlaw
  obtain ⟨p, hcall, hp⟩ := hlaw.commands [] _ post hfirst
  cases hcall
  simp only [tiled_nil] at hp
  exact not_readsSlice_of_large (by omega) (by omega) hp

/-- With good sizes the commands tile the destination exactly where no read has 4 GiB or more;
with other sizes there is no command. -/
theorem log_page_reads_tile (bpId : UInt8) (hbp : bpId < 128) (chunk : ℕ) (dest : Slice) :
    (4 ≤ chunk ∧ chunk % 4 = 0 ∧ dest.bytes.length % 4 = 0 →
      ∀ env, LogPageLaw bpId chunk dest.bytes
          ((readBpViaLogPage bpId chunk dest.bytes).run.run env []).1
          ((readBpViaLogPage bpId chunk dest.bytes).run.run env []).2 ↔
        min chunk dest.bytes.length < 2 ^ 32) ∧
    (¬(4 ≤ chunk ∧ chunk % 4 = 0 ∧ dest.bytes.length % 4 = 0) → ∀ env,
      (readBpViaLogPage bpId chunk dest.bytes).run.run env [] =
        ([], some (.error .invalidParameter))) := by
  constructor
  · rintro ⟨hchunk, hdword, hdest⟩ env
    constructor
    · intro hlaw
      by_contra hlarge
      exact not_readBp_law ⟨hchunk, hdword⟩ hdest (by omega) env hlaw
    · intro hlt
      exact readBp_law hbp ⟨hchunk, hdword⟩ dest hdest hlt env
  · intro hbad env
    have hguard : chunk < 4 ∨ chunk % 4 ≠ 0 ∨ dest.bytes.length % 4 ≠ 0 := by omega
    rw [readBpViaLogPage, if_pos hguard]
    rfl

/-- Every command succeeds and moves no data. -/
def accepting : FirmwareEnv := fun _ call =>
  match call with
  | .passThru _ => some ⟨.success, 0, 0, []⟩
  | _ => none

def kibibyte : Slice where
  bytes := zeroed 1024
  size := by
    rw [length_zeroed]
    decide

/-- Two chunks, every command succeeding. -/
theorem log_page_reads_tile_kibibyte :
    LogPageLaw 1 512 kibibyte.bytes
      ((readBpViaLogPage 1 512 kibibyte.bytes).run.run accepting []).1
      ((readBpViaLogPage 1 512 kibibyte.bytes).run.run accepting []).2 := by
  have hlength : kibibyte.bytes.length = 1024 := length_zeroed 1024
  have htile := (log_page_reads_tile 1 (by decide) 512 kibibyte).1
    ⟨by decide, by decide, by rw [hlength]⟩
  exact (htile accepting).mpr (by rw [hlength]; decide)

def fourGiB : Slice where
  bytes := List.replicate (2 ^ 32) 0
  size := by
    rw [List.length_replicate]
    decide

/-- One chunk of 4 GiB: the command carries a transfer length of 0. -/
theorem log_page_read_of_four_gib :
    ¬LogPageLaw 1 (2 ^ 32) fourGiB.bytes
      ((readBpViaLogPage 1 (2 ^ 32) fourGiB.bytes).run.run accepting []).1
      ((readBpViaLogPage 1 (2 ^ 32) fourGiB.bytes).run.run accepting []).2 := by
  have hlength : fourGiB.bytes.length = 2 ^ 32 := List.length_replicate
  apply not_readBp_law (by decide)
  · rw [hlength]
    decide
  · rw [hlength]
    decide

end PatinaLogPageTiling
