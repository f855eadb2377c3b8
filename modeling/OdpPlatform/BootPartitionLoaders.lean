import OdpPlatform.BpRecoveryLoader
import OdpPlatform.FirstRejection
import OdpPlatform.PatinaBpLogPage
import OdpPlatform.SreFmpImage

/-! # Two loaders of a boot partition

The Rust loader looks at the transport status of a Get Log Page only, the C loader also at SCT
and SC and lets warnings pass. Both go through the same commands, so they are compared on what
the controller answers to them. -/
namespace BootPartitionLoaders

open ByteBuffer InteractionProgram FirmwareServices SreFmpImage PatinaBpLogPage BpRecoveryLoader
open FirstRejection

abbrev Controller := List Command → Packet → Completion

/-- The commands go to the controller; pages can be had and given back. -/
structure Attached (controller : Controller) (env : FirmwareEnv) : Prop where
  answers : ∀ h p, env h (.passThru p) = some (controller (commandsOf h) p)
  allocates : ∀ h pages, ∃ status address,
    env h (.gBSAllocatePages pages) = some (status, address) ∧ status.isError = false
  frees : ∀ h address pages, env h (.gBSFreePages address pages) = some ()

/-- The commands that read the bytes from `off` on, one for each chunk. -/
def chunkPackets (bpId : UInt8) (chunk n : ℕ) : ℕ → ℕ → List Packet
  | 0, _ => []
  | fuel + 1, off =>
    if off < n then
      logPagePacket bpId off (zeroed (min chunk (n - off))) ::
        chunkPackets bpId chunk n fuel (off + min chunk (n - off))
    else []

def exchanges (controller : Controller) : List Command → List Packet → List Command
  | _, [] => []
  | prior, p :: ps =>
    (p, controller prior p) :: exchanges controller (prior ++ [(p, controller prior p)]) ps

def readExchanges (controller : Controller) (bpId : UInt8) (chunk n : ℕ) : List Command :=
  exchanges controller [] (chunkPackets bpId chunk n (n + 1) 0)

def RustAccepts (c : Command) : Prop := c.2.status = .success

def LoaderAccepts (c : Command) : Prop := c.2.Accepted

instance : DecidablePred RustAccepts := fun c => inferInstanceAs (Decidable (c.2.status = .success))
instance : DecidablePred LoaderAccepts := fun c => inferInstanceAs (Decidable c.2.Accepted)

def PlainlyCompleted (c : Command) : Prop := c.2.status = .success ∧ c.2.sct = 0 ∧ c.2.sc = 0

/-- A rejected command that was transported, or a warning on an accepted one. -/
def JudgedApart (c : Command) : Prop :=
  c.2.status = .success ∧ ¬(c.2.sct = 0 ∧ c.2.sc = 0) ∨
    (∃ code, c.2.status = .warning code) ∧ c.2.sct = 0 ∧ c.2.sc = 0

theorem accepts_iff (c : Command) : (RustAccepts c ↔ LoaderAccepts c) ↔ ¬JudgedApart c := by
  simp only [RustAccepts, LoaderAccepts, Completion.Accepted, JudgedApart]
  cases c.2.status with
  | success => simp
  | warning code => simp [Status.isError]
  | error code => simp [Status.isError]

theorem both_accept_iff (c : Command) : RustAccepts c ∧ LoaderAccepts c ↔ PlainlyCompleted c := by
  constructor
  · rintro ⟨hstatus, -, hcodes⟩
    exact ⟨hstatus, hcodes⟩
  · rintro ⟨hstatus, hcodes⟩
    exact ⟨hstatus, by rw [hstatus]; rfl, hcodes⟩

/-- The first command that did not complete plainly, if any, is not judged apart. -/
def NoneApart (xs : List Command) : Prop :=
  ∀ pre c post, xs = pre ++ c :: post → (∀ x ∈ pre, PlainlyCompleted x) → ¬JudgedApart c

theorem agreeOn_iff_noneApart {xs : List Command} :
    AgreeOn RustAccepts LoaderAccepts xs ↔ NoneApart xs := by
  simp only [AgreeOn, NoneApart, accepts_iff, both_accept_iff]

def readImage (xs : List Command) : Bytes := (xs.map fun c => received c.1 c.2).flatten

structure LoadersAgree (n : ℕ) (rust : FirmwareTrace × Option (Except EfiError Bytes))
    (loader : FirmwareTrace × Option LoadOutcome) : Prop where
  accepts : (∃ dest, rust.2 = some (.ok dest)) ↔
    ∃ out, loader.2 = some out ∧ out.status = .success
  commands : commandsOf rust.1 = commandsOf loader.1
  bytes : ∀ dest out, rust.2 = some (.ok dest) → loader.2 = some out → out.status = .success →
    out.loaded.content.take n = dest
  noneRejected : ((∃ dest, rust.2 = some (.ok dest)) ∨
    ∃ out, loader.2 = some out ∧ out.status = .success) →
      ∀ c ∈ commandsOf rust.1 ++ commandsOf loader.1, c.2.sct = 0 ∧ c.2.sc = 0

variable {β : Type} {A : Command → Prop} [DecidablePred A] {prior xs : List Command}
  {r : FirmwareTrace × Option β} {ok failed : β → Prop} {c : Command} {b : β}

structure Streamed (A : Command → Prop) [DecidablePred A] (prior xs : List Command)
    (r : FirmwareTrace × Option β) (ok failed : β → Prop) : Prop where
  commands : commandsOf r.1 = prior ++ consumed A xs
  success : (∀ c ∈ xs, A c) → ∃ b, r.2 = some b ∧ ok b
  failure : (¬∀ c ∈ xs, A c) → ∃ b, r.2 = some b ∧ failed b

theorem streamed_done (hcommands : commandsOf r.1 = prior) (hb : r.2 = some b) (hok : ok b) :
    Streamed A prior [] r ok failed where
  commands := by rw [hcommands, consumed, List.append_nil]
  success _ := ⟨b, hb, hok⟩
  failure hnot := absurd (by simp) hnot

theorem streamed_rejected (hc : ¬A c) (hcommands : commandsOf r.1 = prior ++ [c])
    (hb : r.2 = some b) (hfailed : failed b) : Streamed A prior (c :: xs) r ok failed where
  commands := by rw [hcommands, consumed_rejected hc]
  success hall := absurd (hall c List.mem_cons_self) hc
  failure _ := ⟨b, hb, hfailed⟩

theorem streamed_accepted (hc : A c) (hrest : Streamed A (prior ++ [c]) xs r ok failed) :
    Streamed A prior (c :: xs) r ok failed where
  commands := by rw [hrest.commands, consumed_accepted hc, List.append_assoc]; rfl
  success hall := hrest.success fun x hx => hall x (List.mem_cons_of_mem c hx)
  failure hnot := by
    apply hrest.failure
    intro hall
    apply hnot
    intro x hx
    rcases List.mem_cons.mp hx with rfl | hx
    · exact hc
    · exact hall x hx

theorem length_received_zeroed {k : ℕ} {p : Packet} (hbuffer : p.buffer = zeroed k)
    (htransfer : p.transferLength ≤ k) (c : Completion) : (received p c).length = k := by
  have hfits : 0 + (c.data.take p.transferLength).length ≤ p.buffer.length := by
    rw [hbuffer, length_zeroed, List.length_take]
    omega
  rw [received, length_splice hfits, hbuffer, length_zeroed]

def ZeroFrom (off : ℕ) (dest : Bytes) : Prop := dest.drop off = zeroed (dest.length - off)

theorem zeroFrom_zeroed (n : ℕ) : ZeroFrom 0 (zeroed n) := by
  rw [ZeroFrom, List.drop_zero, length_zeroed, Nat.sub_zero]

theorem ZeroFrom.window {off k : ℕ} {dest : Bytes} (hzero : ZeroFrom off dest)
    (hk : off + k ≤ dest.length) : window dest off k = zeroed k := by
  simp only [ZeroFrom, zeroed] at hzero
  simp only [ByteBuffer.window, zeroed]
  rw [hzero, List.take_replicate, Nat.min_eq_left (by omega)]

theorem ZeroFrom.splice {off : ℕ} {dest d : Bytes} (hzero : ZeroFrom off dest)
    (hd : off + d.length ≤ dest.length) : ZeroFrom (off + d.length) (splice dest off d) := by
  have hoff : (dest.take off).length = off := List.length_take_of_le (by omega)
  have hfront : (dest.take off ++ d).length = off + d.length := by
    rw [List.length_append, hoff]
  simp only [ZeroFrom] at hzero ⊢
  rw [length_splice hd, ByteBuffer.splice, List.drop_append_of_le_length hfront.ge,
    List.drop_eq_nil_of_le hfront.le, List.nil_append, ← List.drop_drop, hzero]
  simp only [zeroed]
  rw [List.drop_replicate, Nat.sub_sub]

theorem bpLogPagePacket_eq {bpId : UInt8} {off k : ℕ} (hk : 4 ≤ k) :
    bpLogPagePacket bpId (BpRecoveryLoader.lidBpHeaderBytes + off) k =
      logPagePacket bpId off (zeroed k) := by
  have hnumd : UInt32.ofNat (k / 4) - 1 = UInt32.ofNat (k / 4 - 1) :=
    (UInt32.ofNat_sub (by omega : 1 ≤ k / 4)).symm
  simp only [bpLogPagePacket, logPagePacket, length_zeroed, hnumd]
  rfl

theorem getBpLogPage_bind {γ : Type} {bpId : UInt8} {off k : ℕ} (hk : 4 ≤ k)
    (f : Status × Bytes × UInt32 × UInt32 → Firmware γ) :
    getBpLogPage bpId (BpRecoveryLoader.lidBpHeaderBytes + off) k >>= f =
      .ask (.passThru (logPagePacket bpId off (zeroed k))) fun x =>
        f (x.status, received (logPagePacket bpId off (zeroed k)) x, x.sct.toUInt32,
          x.sc.toUInt32) := by
  rw [getBpLogPage, bpLogPagePacket_eq hk]
  rfl

theorem rejected_iff (x : Completion) :
    (x.status.isError = true ∨ x.sct.toUInt32 ≠ 0 ∨ x.sc.toUInt32 ≠ 0) ↔ ¬x.Accepted := by
  have hword : ∀ b : UInt8, b.toUInt32 = 0 ↔ b = 0 := by
    intro b
    rw [← UInt32.toNat_inj, ← UInt8.toNat_inj, UInt8.toNat_toUInt32]
    rfl
  rw [Completion.Accepted, not_and_or, not_and_or, Bool.not_eq_false, ne_eq, ne_eq, hword, hword]

theorem commandsOf_answered (h : FirmwareTrace) (p : Packet) (x : Completion) :
    commandsOf (h ++ [⟨.passThru p, some x⟩]) = commandsOf h ++ [(p, x)] := by
  rw [commandsOf_append, commandsOf_passThru]

theorem readImage_cons (c : Command) (xs : List Command) :
    readImage (c :: xs) = received c.1 c.2 ++ readImage xs := by
  rw [readImage, List.map_cons, List.flatten_cons]
  rfl

/-- A page put behind what has been read: the same size, and zeros behind it again. -/
theorem splice_page (bpId : UInt8) (c : Completion) {off k : ℕ} {dest : Bytes}
    (hzero : ZeroFrom off dest) (hfits : off + k ≤ dest.length) :
    let page := received (logPagePacket bpId off (zeroed k)) c
    (splice dest off page).length = dest.length ∧ ZeroFrom (off + k) (splice dest off page) ∧
      (splice dest off page).take (off + k) = dest.take off ++ page := by
  intro page
  have hlen : page.length = k :=
    length_received_zeroed rfl (by simp [logPagePacket, Nat.mod_le]) c
  have hpage : off + page.length ≤ dest.length := hlen.symm ▸ hfits
  have hzero' := hzero.splice hpage
  have htake := @take_splice _ dest page off (by omega)
  rw [hlen] at hzero' htake
  exact ⟨length_splice hpage, hzero', htake⟩

section Loops

variable {controller : Controller} {env : FirmwareEnv} (hatt : Attached controller env)
  {bpId : UInt8} {chunk n : ℕ}
include hatt

theorem readBpLoop_streamed (hchunk : 0 < chunk) (fuel : ℕ) :
    ∀ {off : ℕ} {dest : Bytes} {h : FirmwareTrace}, dest.length = n → ZeroFrom off dest →
      off ≤ n → n - off < fuel →
      Streamed RustAccepts (commandsOf h)
        (exchanges controller (commandsOf h) (chunkPackets bpId chunk n fuel off))
        ((readBpLoop bpId chunk fuel off dest).run.run env h)
        (fun b => b = .ok (dest.take off ++ readImage
          (exchanges controller (commandsOf h) (chunkPackets bpId chunk n fuel off))))
        (fun b => ∃ e, b = .error e) := by
  induction fuel with
  | zero => intros; omega
  | succ fuel ih =>
    intro off dest h hlength hzero hoff hfuel
    simp only [readBpLoop, chunkPackets]
    by_cases hmore : off < n
    · obtain ⟨k, hk⟩ : ∃ k, k = min chunk (n - off) := ⟨_, rfl⟩
      have hwindow : window dest off k = zeroed k := hzero.window (by omega)
      rw [if_pos (by omega : off < dest.length), if_pos hmore, Program.run_lift_bind, ask,
        Program.call_bind, hlength, ← hk, hwindow]
      have henv := hatt.answers h (logPagePacket bpId off (zeroed k))
      rw [Program.run_ask_some env h _ henv, exchanges]
      generalize controller (commandsOf h) (logPagePacket bpId off (zeroed k)) = x
      have hcommands := commandsOf_answered h (logPagePacket bpId off (zeroed k)) x
      by_cases hx : x.status = .success
      · obtain ⟨hlength', hzero', htake⟩ :=
          splice_page bpId x hzero (by omega : off + k ≤ dest.length)
        have hnext := @ih (off + k) _ (h ++ [⟨.passThru (logPagePacket bpId off (zeroed k)), some x⟩])
          (hlength'.trans hlength) hzero' (by omega) (by omega)
        rw [hcommands, htake, List.append_assoc] at hnext
        rw [if_neg (not_not.mpr hx), readImage_cons]
        exact streamed_accepted hx hnext
      · rw [if_pos hx]
        exact streamed_rejected hx hcommands rfl ⟨_, rfl⟩
    · rw [if_neg (by omega : ¬off < dest.length), if_neg hmore]
      refine streamed_done rfl rfl ?_
      have hall : dest.take off = dest := List.take_of_length_le (by omega)
      rw [hall, exchanges, readImage, List.map_nil, List.flatten_nil, List.append_nil]

theorem loadBpLoop_streamed (hchunk : 4 ≤ chunk) (hdword : chunk % 4 = 0) (hn : n % 4 = 0)
    (gResult : BplResult) (pageAddr pages : ℕ) (fuel : ℕ) :
    ∀ {off : ℕ} {dest : Bytes} {h : FirmwareTrace}, n ≤ dest.length → ZeroFrom off dest →
      off % 4 = 0 → off ≤ n → n - off < fuel →
      Streamed LoaderAccepts (commandsOf h)
        (exchanges controller (commandsOf h) (chunkPackets bpId chunk n fuel off))
        ((loadBpLoop gResult bpId n chunk pageAddr pages fuel off dest).run env h)
        (fun out => out.status = .success ∧ out.loaded.content.take n = dest.take off ++ readImage
          (exchanges controller (commandsOf h) (chunkPackets bpId chunk n fuel off)))
        (fun out => out.status ≠ .success) := by
  induction fuel with
  | zero => intros; omega
  | succ fuel ih =>
    intro off dest h hlength hzero haligned hoff hfuel
    unfold loadBpLoop chunkPackets
    by_cases hmore : off < n
    · obtain ⟨k, hk⟩ : ∃ k, k = min chunk (n - off) := ⟨_, rfl⟩
      have hreadBytes : (if off + chunk > n then n - off else chunk) = k := by
        split <;> omega
      rw [if_pos hmore, if_pos hmore, hreadBytes, ← hk]
      dsimp only
      rw [getBpLogPage_bind (by omega : 4 ≤ k)]
      have henv := hatt.answers h (logPagePacket bpId off (zeroed k))
      rw [Program.run_ask_some env h _ henv, exchanges]
      generalize controller (commandsOf h) (logPagePacket bpId off (zeroed k)) = x
      have hcommands := commandsOf_answered h (logPagePacket bpId off (zeroed k)) x
      dsimp only
      by_cases hx : x.Accepted
      · obtain ⟨hlength', hzero', htake⟩ :=
          splice_page bpId x hzero (by omega : off + k ≤ dest.length)
        have hnext := @ih (off + k) _ (h ++ [⟨.passThru (logPagePacket bpId off (zeroed k)), some x⟩])
          (by omega) hzero' (by omega) (by omega) (by omega)
        rw [hcommands, htake, List.append_assoc] at hnext
        rw [if_neg ((rejected_iff x).not.mpr (not_not.mpr hx)), readImage_cons]
        exact streamed_accepted hx hnext
      · rw [if_pos ((rejected_iff x).mpr hx), ask, Program.call_bind,
          Program.run_ask_some env _ _ (hatt.frees _ _ _)]
        refine streamed_rejected hx ?_ rfl ?_
        · rw [Program.pure_eq_done, Program.run_done]
          exact (commandsOf_quiet rfl).trans hcommands
        · dsimp only
          cases x.status <;> simp [Status.isError]
    · rw [if_neg hmore, if_neg hmore]
      refine streamed_done rfl rfl ⟨rfl, ?_⟩
      obtain rfl : off = n := by omega
      rw [exchanges, readImage, List.map_nil, List.flatten_nil, List.append_nil]

end Loops

/-- A chunk size that the MDTS probe returns for some controller. -/
def ProbedChunk (chunk : ℕ) : Prop :=
  ∃ (env : FirmwareEnv) (h h' : FirmwareTrace), probeMaxTransfer.run env h = (h', some chunk)

theorem ProbedChunk.dword {chunk : ℕ} (hchunk : ProbedChunk chunk) :
    4 ≤ chunk ∧ chunk % 4 = 0 := by
  have hclamp : ∀ mdts, 4 ≤ max readChunkMin (min (maxTransfer mdts) readChunkMax) ∧
      max readChunkMin (min (maxTransfer mdts) readChunkMax) % 4 = 0 := by
    intro mdts
    simp only [maxTransfer, readChunkMin, readChunkMax]
    split <;> omega
  obtain ⟨env, h, h', hrun⟩ := hchunk
  rw [probeMaxTransfer, ask, Program.call_bind] at hrun
  obtain ⟨x, -, hrest⟩ := Program.run_ask_returns env h hrun
  split at hrest
  · cases hrest
    decide
  · dsimp only at hrest
    split at hrest
    · cases hrest
      decide
    · obtain rfl := Option.some.inj (congrArg Prod.snd hrest)
      exact hclamp _

theorem streamed_ok_iff (hr : Streamed A prior xs r ok failed) (good : β → Prop)
    (hok : ∀ b, ok b → good b) (hfailed : ∀ b, failed b → ¬good b) :
    (∃ b, r.2 = some b ∧ good b) ↔ ∀ c ∈ xs, A c := by
  constructor
  · rintro ⟨b, hb, hgood⟩
    by_contra hnot
    obtain ⟨b', hb', hrejected⟩ := hr.failure hnot
    obtain rfl : b = b' := Option.some.inj (hb.symm.trans hb')
    exact hfailed b hrejected hgood
  · intro hall
    obtain ⟨b, hb, haccepted⟩ := hr.success hall
    exact ⟨b, hb, hok b haccepted⟩

section Compare

variable {n : ℕ} {rust : FirmwareTrace × Option (Except EfiError Bytes)}
  {loader : FirmwareTrace × Option LoadOutcome}

/-- Two loops over one list of commands agree when they decide alike on the way. -/
theorem loadersAgree_iff
    (hrust : Streamed RustAccepts [] xs rust (fun b => b = .ok (readImage xs))
      fun b => ∃ e, b = .error e)
    (hloader : Streamed LoaderAccepts [] xs loader
      (fun out => out.status = .success ∧ out.loaded.content.take n = readImage xs)
      fun out => out.status ≠ .success) :
    LoadersAgree n rust loader ↔ AgreeOn RustAccepts LoaderAccepts xs := by
  have hrust_ok : (∃ dest, rust.2 = some (.ok dest)) ↔ ∀ c ∈ xs, RustAccepts c := by
    have hreturned := streamed_ok_iff hrust (fun b => ∃ dest, b = .ok dest) (fun b hb => ⟨_, hb⟩)
      (by rintro b ⟨e, rfl⟩ ⟨dest, hdest⟩; cases hdest)
    rw [← hreturned]
    constructor
    · rintro ⟨dest, hdest⟩
      exact ⟨_, hdest, dest, rfl⟩
    · rintro ⟨b, hb, dest, rfl⟩
      exact ⟨dest, hb⟩
  have hloader_ok : (∃ out, loader.2 = some out ∧ out.status = .success) ↔
      ∀ c ∈ xs, LoaderAccepts c :=
    streamed_ok_iff hloader _ (fun out hok => hok.1) fun out hfailed hstatus => hfailed hstatus
  rw [agreeOn_iff]
  constructor
  · intro hagree
    constructor
    · have hcommands := hagree.commands
      rwa [hrust.commands, hloader.commands, List.nil_append, List.nil_append] at hcommands
    · rw [← hrust_ok, ← hloader_ok]
      exact hagree.accepts
  · rintro ⟨hconsumed, hall⟩
    refine ⟨?_, ?_, ?_, ?_⟩
    · rw [hrust_ok, hloader_ok, hall]
    · rw [hrust.commands, hloader.commands, hconsumed]
    · intro dest out hdest hout hstatus
      obtain ⟨b, hb, rfl⟩ := hrust.success (hrust_ok.mp ⟨dest, hdest⟩)
      obtain ⟨out', hout', -, hcontent⟩ := hloader.success (hloader_ok.mp ⟨out, hout, hstatus⟩)
      obtain rfl : out = out' := Option.some.inj (hout.symm.trans hout')
      cases hdest.symm.trans hb
      exact hcontent
    · intro hok c hc
      have haccepts : ∀ c ∈ xs, LoaderAccepts c := by
        rcases hok with hok | hok
        · exact hall.mp (hrust_ok.mp hok)
        · exact hloader_ok.mp hok
      rw [hrust.commands, hloader.commands, hconsumed, consumed_of_forall haccepts] at hc
      have hmem : c ∈ xs := by
        rcases List.mem_append.mp hc with hc | hc <;> exact hc
      exact (haccepts c hmem).2

end Compare

section Loaders

variable {controller : Controller} {env : FirmwareEnv} (hatt : Attached controller env)
  {chunk n : ℕ}
include hatt

theorem readBpViaLogPage_streamed (hchunk : 4 ≤ chunk) (hdword : chunk % 4 = 0) (hn : n % 4 = 0)
    (bpId : UInt8) :
    Streamed RustAccepts [] (readExchanges controller bpId chunk n)
      ((readBpViaLogPage bpId chunk (zeroed n)).run.run env [])
      (fun b => b = .ok (readImage (readExchanges controller bpId chunk n)))
      fun b => ∃ e, b = .error e := by
  have hguard : ¬(chunk < 4 ∨ chunk % 4 ≠ 0 ∨ (zeroed n).length % 4 ≠ 0) := by
    rw [length_zeroed]
    omega
  have hloop := @readBpLoop_streamed controller env hatt bpId chunk n (by omega) (n + 1) 0 (zeroed n)
    [] (length_zeroed n) (zeroFrom_zeroed n) (Nat.zero_le n) (by omega)
  rw [readBpViaLogPage, if_neg hguard, length_zeroed]
  exact hloop

theorem loadBpIntoPages_streamed (hchunk : 4 ≤ chunk) (hdword : chunk % 4 = 0) (hn : n % 4 = 0)
    (gResult : BplResult) (bpId : UInt8) :
    Streamed LoaderAccepts [] (readExchanges controller bpId chunk n)
      ((loadBpIntoPages gResult bpId n chunk).run env [])
      (fun out => out.status = .success ∧
        out.loaded.content.take n = readImage (readExchanges controller bpId chunk n))
      fun out => out.status ≠ .success := by
  obtain ⟨status, address, hpages, hstatus⟩ :=
    hatt.allocates [] ((n + efiPageSize - 1) / efiPageSize)
  have hfits : n ≤ (zeroed ((n + efiPageSize - 1) / efiPageSize * efiPageSize)).length := by
    rw [length_zeroed, efiPageSize]
    omega
  -- the allocation is not a command of the controller
  have hnone : commandsOf [⟨.gBSAllocatePages ((n + efiPageSize - 1) / efiPageSize),
      some (status, address)⟩] = [] := rfl
  rw [loadBpIntoPages, ask, Program.call_bind, Program.run_ask_some env [] _ hpages]
  dsimp only
  rw [if_neg (by rw [hstatus]; exact Bool.false_ne_true)]
  have hloop := @loadBpLoop_streamed controller env hatt bpId chunk n hchunk hdword hn gResult address
    ((n + efiPageSize - 1) / efiPageSize) (n + 1) 0
    (zeroed ((n + efiPageSize - 1) / efiPageSize * efiPageSize))
    [⟨.gBSAllocatePages ((n + efiPageSize - 1) / efiPageSize), some (status, address)⟩]
    hfits (zeroFrom_zeroed _) rfl (Nat.zero_le n) (by omega)
  rwa [hnone] at hloop

/-- The loaders agree exactly when no command on the way is transported but rejected by the
controller, or accepted with a warning. -/
theorem loaders_agree_iff (hchunk : ProbedChunk chunk) (hn : n % 4 = 0) (bpId : UInt8)
    (gResult : BplResult) :
    LoadersAgree n ((readBpViaLogPage bpId chunk (zeroed n)).run.run env [])
        ((loadBpIntoPages gResult bpId n chunk).run env []) ↔
      NoneApart (readExchanges controller bpId chunk n) := by
  obtain ⟨hle, hdword⟩ := hchunk.dword
  rw [← agreeOn_iff_noneApart]
  exact loadersAgree_iff (readBpViaLogPage_streamed hatt hle hdword hn bpId)
    (loadBpIntoPages_streamed hatt hle hdword hn gResult bpId)

end Loaders

def Controller.env (controller : Controller) : FirmwareEnv := fun h c =>
  match c with
  | .passThru p => some (controller (commandsOf h) p)
  | .gBSAllocatePages _ => some (.success, 4096)
  | .gBSFreePages _ _ => some ()
  | _ => none

theorem attached_env (controller : Controller) : Attached controller controller.env where
  answers _ _ := rfl
  allocates _ _ := ⟨.success, 4096, rfl, rfl⟩
  frees _ _ _ := rfl

/-- The probe falls back to 64 KiB when Identify fails. -/
theorem probedChunk_default : ProbedChunk readChunkDefault := by
  let identifyFails : Controller := fun _ _ => ⟨efiDeviceError, 0, 0, []⟩
  exact ⟨identifyFails.env, [], _, rfl⟩

/-- Each command is transported and completes with Invalid Field in Command. -/
def invalidField : Controller := fun _ _ => ⟨.success, 0, 0x02, []⟩

theorem loaders_agree_iff_invalidField :
    LoadersAgree 512 ((readBpViaLogPage 1 readChunkDefault (zeroed 512)).run.run invalidField.env [])
        ((loadBpIntoPages {} 1 512 readChunkDefault).run invalidField.env []) ↔
      NoneApart (readExchanges invalidField 1 readChunkDefault 512) :=
  loaders_agree_iff (attached_env invalidField) probedChunk_default rfl 1 {}

theorem invalid_field_read_as_image :
    ¬LoadersAgree 512
      ((readBpViaLogPage 1 readChunkDefault (zeroed 512)).run.run invalidField.env [])
      ((loadBpIntoPages {} 1 512 readChunkDefault).run invalidField.env []) := by
  have hread : (readExchanges invalidField 1 readChunkDefault 512) =
      [(logPagePacket 1 0 (zeroed 512), ⟨.success, 0, 0x02, []⟩)] := rfl
  have hrust := readBpViaLogPage_streamed (n := 512) (attached_env invalidField)
    (by decide : 4 ≤ readChunkDefault) rfl rfl 1
  have hloader := loadBpIntoPages_streamed (n := 512) (attached_env invalidField)
    (by decide : 4 ≤ readChunkDefault) rfl rfl {} 1
  rw [loadersAgree_iff hrust hloader, hread]
  intro hagree
  have hsame := hagree [] _ [] rfl nofun
  exact absurd (hsame.mp rfl) (by decide)

end BootPartitionLoaders
