import OdpPlatform.SreRecoveryLoader
import OdpPlatform.PatinaBootDiscovery

/-! # What SreRecoveryLoader does to the boot variables

BootOrder is read the way the Rust boot manager reads it, so the two agree on the entries that
stay. -/
namespace SreLoaderBootOrder

open ByteBuffer InteractionProgram InteractionContract InteractionMonitor FirmwareServices
open SreLoaderServices SreRecoveryLoader
open PatinaBootOptions (chunksU16)
open PatinaBootDiscovery (bootOrderBytes)
open PatinaLoadOption (leUnit toNat_u16FromLeBytes)
open PatinaBootOptions (u16FromLeBytes)

def keptOptions (order : Bytes) : List UInt16 :=
  (chunksU16 order).filter fun n => n ≠ recoveryOption

theorem leWord16_cons (a b : UInt8) (rest : Bytes) :
    leWord16 (a :: b :: rest) = u16FromLeBytes a b := by
  apply UInt16.toNat_inj.mp
  rw [toNat_leWord16, toNat_u16FromLeBytes]
  rfl

theorem keptOptions_cons (a b : UInt8) (rest : Bytes) :
    keptOptions (a :: b :: rest) =
      if u16FromLeBytes a b ≠ recoveryOption then u16FromLeBytes a b :: keptOptions rest
      else keptOptions rest := by
  rw [keptOptions, chunksU16, List.filter_cons]
  simp only [decide_eq_true_eq]
  rfl

theorem chunksU16_short {rest : Bytes} (hshort : ∀ a b tail, rest = a :: b :: tail → False) :
    chunksU16 rest = [] := by
  rcases rest with _ | ⟨a, _ | ⟨b, rest⟩⟩
  · rfl
  · rfl
  · exact absurd rfl (hshort a b rest)

theorem bootOrderBytes_append (p q : List UInt16) :
    bootOrderBytes (p ++ q) = bootOrderBytes p ++ bootOrderBytes q := List.flatMap_append

/-- Writing behind what NewBo already holds. -/
theorem append_option {newBo : Bytes} {kept : List UInt16} {n : UInt16}
    (htake : newBo.take (bootOrderBytes kept).length = bootOrderBytes kept)
    (hfits : (bootOrderBytes kept).length + 2 ≤ newBo.length) :
    (splice newBo (bootOrderBytes kept).length (leBytes16 n)).length = newBo.length ∧
      (splice newBo (bootOrderBytes kept).length (leBytes16 n)).take
        (bootOrderBytes (kept ++ [n])).length = bootOrderBytes (kept ++ [n]) := by
  have hone : bootOrderBytes [n] = leBytes16 n := by
    rw [bootOrderBytes, List.flatMap_singleton]
    rfl
  have hlen : (bootOrderBytes (kept ++ [n])).length =
      (bootOrderBytes kept).length + (leBytes16 n).length := by
    rw [bootOrderBytes_append, List.length_append, hone]
  constructor
  · exact length_splice (by rw [length_leBytes16]; exact hfits)
  · rw [hlen, take_splice (by omega), htake, bootOrderBytes_append, hone]

/-- `before` has been read, `rest` is left; NewBo has room for all that is kept. -/
theorem dropRecoveryOption_spec {boBuf : Bytes} {boSize : ℕ} (rest : Bytes) :
    ∀ (fuel i : ℕ) (newBo : Bytes) (kept : List UInt16) (tail : Bytes),
      boBuf.drop i = rest ++ tail → rest.length ≤ fuel → i + rest.length = boSize →
      newBo.take (bootOrderBytes kept).length = bootOrderBytes kept →
      (bootOrderBytes kept).length + rest.length ≤ newBo.length →
      let out := dropRecoveryOption boBuf boSize fuel i (newBo, (bootOrderBytes kept).length)
      out.2 = (bootOrderBytes (kept ++ keptOptions rest)).length ∧
        out.1.take out.2 = bootOrderBytes (kept ++ keptOptions rest) ∧
        out.1.length = newBo.length := by
  fun_induction chunksU16 rest with
  | case1 a b rest ih =>
    intro fuel i newBo kept tail hdrop hfuel hsize htake hfits
    simp only [List.length_cons] at hfuel hsize hfits
    cases fuel with
    | zero => omega
    | succ fuel =>
      have hidx : leWord16 (boBuf.drop i) = u16FromLeBytes a b := by
        rw [hdrop]
        exact leWord16_cons a b _
      have hnext : boBuf.drop (i + 2) = rest ++ tail := by
        rw [← List.drop_drop, hdrop]
        rfl
      rw [dropRecoveryOption, if_pos (by omega : i + 1 < boSize)]
      simp only [hidx]
      by_cases hkeep : u16FromLeBytes a b ≠ recoveryOption
      · obtain ⟨hlen, htake'⟩ := append_option (n := u16FromLeBytes a b) htake (by omega)
        have hsplit : (bootOrderBytes (kept ++ [u16FromLeBytes a b])).length =
            (bootOrderBytes kept).length + 2 := by
          rw [bootOrderBytes_append, List.length_append]
          rfl
        have hrest := ih fuel (i + 2) _ (kept ++ [u16FromLeBytes a b]) tail hnext (by omega)
          (by omega) htake' (by rw [hlen, hsplit]; omega)
        rw [hsplit] at hrest
        rw [if_pos hkeep, keptOptions_cons, if_pos hkeep, List.append_cons, ← hlen]
        exact hrest
      · have hrest := ih fuel (i + 2) newBo kept tail hnext (by omega) (by omega) htake (by omega)
        rw [if_neg hkeep, keptOptions_cons, if_neg hkeep]
        exact hrest
  | case2 rest hshort =>
    intro fuel i newBo kept tail hdrop hfuel hsize htake hfits
    have hstop : dropRecoveryOption boBuf boSize fuel i (newBo, (bootOrderBytes kept).length) =
        (newBo, (bootOrderBytes kept).length) := by
      cases fuel with
      | zero => rfl
      | succ fuel =>
        have hlast : ¬i + 1 < boSize := by
          intro hlt
          rcases rest with _ | ⟨a, _ | ⟨b, rest⟩⟩
          · simp at hsize
            omega
          · simp at hsize
            omega
          · exact hshort a b rest rfl
        rw [dropRecoveryOption, if_neg hlast]
    have hnone : keptOptions rest = [] := by
      rw [keptOptions, chunksU16_short hshort]
      rfl
    rw [hstop, hnone, List.append_nil]
    exact ⟨rfl, htake, rfl⟩

theorem length_chunksU16 (order : Bytes) : (chunksU16 order).length = order.length / 2 := by
  fun_induction chunksU16 order with
  | case1 a b rest ih =>
    simp only [List.length_cons, ih]
    omega
  | case2 order hshort =>
    rcases order with _ | ⟨a, _ | ⟨b, rest⟩⟩
    · rfl
    · simp
    · exact absurd rfl (hshort a b rest)

/-- Something stays, and the entry or half a trailing one goes. -/
def NeedsCleaning (order : Bytes) : Prop :=
  keptOptions order ≠ [] ∧ (recoveryOption ∈ chunksU16 order ∨ order.length % 2 = 1)

instance (order : Bytes) : Decidable (NeedsCleaning order) := inferInstanceAs (Decidable (_ ∧ _))

/-- The test on NewSize in terms of the entries. -/
theorem needsCleaning_iff (order : Bytes) :
    ((bootOrderBytes (keptOptions order)).length > 0 ∧
      (bootOrderBytes (keptOptions order)).length ≠ order.length) ↔ NeedsCleaning order := by
  have hlen := PatinaBootDiscovery.length_bootOrderBytes (keptOptions order)
  have hall := length_chunksU16 order
  have hle : (keptOptions order).length ≤ (chunksU16 order).length := List.length_filter_le _ _
  have hdropped : (keptOptions order).length = (chunksU16 order).length ↔
      recoveryOption ∉ chunksU16 order := by
    rw [keptOptions, List.length_filter_eq_length_iff]
    simp only [decide_eq_true_eq]
    exact ⟨fun h hmem => h _ hmem rfl, fun h n hn heq => h (heq ▸ hn)⟩
  have hnonempty : keptOptions order ≠ [] ↔ 0 < (keptOptions order).length :=
    List.length_pos_iff.symm
  rw [NeedsCleaning, hnonempty, hlen]
  by_cases hmem : recoveryOption ∈ chunksU16 order
  · have hlt : (keptOptions order).length ≠ (chunksU16 order).length :=
      fun h => (hdropped.mp h) hmem
    simp only [hmem, true_or, and_true]
    omega
  · have heq := hdropped.mpr hmem
    simp only [hmem, false_or]
    omega

theorem writeCleanedBootOrder_eq {size : ℕ} {order : Bytes} (hfits : order.length ≤ size) :
    writeCleanedBootOrder size (splice (zeroed size) 0 order) order.length =
      if NeedsCleaning order then do
        let _ ← fw (.gRTSetVariable .bootOrder (bootOrderBytes (keptOptions order)))
        pure ()
      else pure () := by
  have hbuf : (splice (zeroed size) 0 order).drop 0 =
      order ++ (zeroed size).drop (0 + order.length) := by
    rw [List.drop_zero, splice, List.take_zero, List.nil_append]
  have hempty : (bootOrderBytes []).length = 0 := rfl
  have hroom : (bootOrderBytes []).length + order.length ≤ (zeroed size).length := by
    rw [hempty, Nat.zero_add, length_zeroed]
    exact hfits
  obtain ⟨hsize, htake, -⟩ := dropRecoveryOption_spec order order.length 0 (zeroed size) [] _ hbuf
    le_rfl (Nat.zero_add _) List.take_zero hroom
  rw [List.nil_append, hempty] at hsize htake
  rw [writeCleanedBootOrder]
  simp only
  rw [htake, hsize]
  simp only [needsCleaning_iff]

/-- What the history says of them: `cleared` is about the last call. -/
structure BootVariables where
  started : Bool := false
  cleared : Bool := false
  order : Option Bytes := none
  cleaned : Bool := false
  reset : Bool := false

def orderRead (s : BootVariables) {size : ℕ} : Option (VariableRead size) → BootVariables
  | none => s
  | some r => if r.status.isError = true then s else { s with order := some r.data }

theorem orderRead_error {s : BootVariables} {size : ℕ} {r : VariableRead size}
    (hr : r.status.isError = true) : orderRead s (some r) = s := by
  rw [orderRead, if_pos hr]

theorem orderRead_ok {s : BootVariables} {size : ℕ} {r : VariableRead size}
    (hr : r.status.isError = false) : orderRead s (some r) = { s with order := some r.data } := by
  rw [orderRead, hr]
  rfl

def noteCall (s : BootVariables) : Event LoaderAnswer → BootVariables
  | ⟨.firmware (.gRTSetVariable .bootNext _), _⟩ => { s with started := true, cleared := true }
  | ⟨.firmware (.gRTSetVariable .bootOrder _), _⟩ => { s with cleared := false, cleaned := true }
  | ⟨.firmware .gRTResetSystem, _⟩ => { s with reset := true }
  | ⟨.gRTGetVariable .bootOrder _, r⟩ => orderRead { s with cleared := false } r
  | _ => { s with cleared := false }

/-- BootNext is only ever deleted, first of all and again right before the reset, which is the
last call; BootOrder is only ever stripped of the entry, once. -/
def Permitted (s : BootVariables) : LoaderCall → Prop
  | .firmware (.gRTSetVariable .bootNext data) => data = [] ∧ s.reset = false
  | .firmware (.gRTSetVariable .bootOrder data) =>
    s.started = true ∧ s.reset = false ∧ s.cleaned = false ∧
      ∃ order, s.order = some order ∧ NeedsCleaning order ∧
        data = bootOrderBytes (keptOptions order)
  | .firmware (.gRTSetVariable _ _) => False
  | .firmware .gRTResetSystem => s.cleared = true ∧ s.reset = false
  | _ => s.started = true ∧ s.reset = false

def bootVariables : Monitor LoaderAnswer BootVariables where
  start := {}
  step := noteCall
  permits := Permitted

structure Cleaned (s : BootVariables) : Prop where
  started : s.started = true
  running : s.reset = false
  exactly : s.cleaned = true ↔ ∃ order, s.order = some order ∧ NeedsCleaning order

structure Finished (s : BootVariables) : Prop where
  reset : s.reset = true
  exactly : s.cleaned = true ↔ ∃ order, s.order = some order ∧ NeedsCleaning order

def Aside : LoaderCall → Prop
  | .firmware (.gRTSetVariable _ _) => False
  | .firmware .gRTResetSystem => False
  | .gRTGetVariable _ _ => False
  | _ => True

theorem permitted_of_aside {s : BootVariables} {c : LoaderCall} (hc : Aside c)
    (hstarted : s.started = true) (hrunning : s.reset = false) : Permitted s c := by
  unfold Aside at hc
  unfold Permitted
  split at hc <;> simp_all

theorem noteCall_of_aside {s : BootVariables} {c : LoaderCall} (hc : Aside c)
    (r : LoaderAnswer c) : noteCall s ⟨c, some r⟩ = { s with cleared := false } := by
  unfold Aside at hc
  unfold noteCall
  split at hc <;> simp_all

theorem Cleaned.aside {s : BootVariables} (hs : Cleaned s) {c : LoaderCall} (hc : Aside c)
    (r : LoaderAnswer c) : Cleaned (noteCall s ⟨c, some r⟩) := by
  rw [noteCall_of_aside hc]
  exact ⟨hs.started, hs.running, hs.exactly⟩

theorem steps_aside {α : Type} {p : Loader α} (hp : Only Aside p) {s : BootVariables}
    (hs : Cleaned s) : bootVariables.Steps (fun s' _ => Cleaned s') p s :=
  Monitor.steps_of_only hp (fun _ _ h hc => permitted_of_aside hc h.started h.running)
    (fun _ _ r h hc => h.aside hc r) hs

theorem aside_writeResultToNvRam (gResult : SreLoaderResult) :
    Only Aside (writeResultToNvRam gResult) := only_call_bind trivial fun _ => trivial

theorem aside_fileSize (wim : Interface) :
    Only Aside (firmware.program (NvmeBpWrite.fileSize wim)) := by
  apply InteractionEmbedding.Embedding.only_program
  apply only_ask_bind trivial
  rintro ⟨status, infoSize, _⟩
  dsimp only
  split
  · exact only_ask_bind trivial fun _ => trivial
  apply only_ask_bind trivial
  intro allocated
  split
  · exact only_ask_bind trivial fun _ => trivial
  apply only_ask_bind trivial
  rintro ⟨status, _, size⟩
  apply only_ask_bind trivial
  intro _
  dsimp only
  split
  · exact only_ask_bind trivial fun _ => trivial
  · trivial

theorem aside_openWim (imageHandle : Handle) : Only Aside (openWim imageHandle) := by
  refine only_call_bind trivial ?_
  rintro ⟨status, deviceHandle⟩
  dsimp only
  split
  · trivial
  refine only_call_bind trivial ?_
  rintro ⟨status, sfs⟩
  dsimp only
  split
  · trivial
  refine only_call_bind trivial ?_
  rintro ⟨status, root⟩
  dsimp only
  split
  · trivial
  refine only_call_bind trivial ?_
  rintro ⟨status, wim⟩
  refine only_call_bind trivial ?_
  intro _
  dsimp only
  split <;> trivial

theorem aside_readWim (wim : Interface) (fileBytes : UInt64) :
    Only Aside (readWim wim fileBytes) := by
  refine only_call_bind trivial ?_
  rintro ⟨status, pageAddr⟩
  dsimp only
  split
  · exact only_call_bind trivial fun _ => trivial
  refine only_call_bind trivial ?_
  rintro ⟨status, data⟩
  refine only_call_bind trivial ?_
  intro _
  dsimp only
  split
  · exact only_call_bind trivial fun _ => trivial
  · trivial

theorem aside_loadWimIntoPages (imageHandle : Handle) (gResult : SreLoaderResult) :
    Only Aside (loadWimIntoPages imageHandle gResult) := by
  apply (aside_openWim imageHandle).bind
  intro opened
  cases opened with
  | error status => trivial
  | ok wim =>
    apply (aside_writeResultToNvRam _).bind
    intro _
    apply (aside_fileSize wim).bind
    intro size
    cases size with
    | error status => trivial
    | ok size => exact (aside_readWim wim _).bind fun _ => trivial

theorem steps_aside_bind {α : Type} {c : LoaderCall} {f : LoaderAnswer c → Loader α}
    {s : BootVariables} {Q : BootVariables → α → Prop} (hc : Aside c) (hs : Cleaned s)
    (hf : ∀ r s', Cleaned s' → bootVariables.Steps Q (f r) s') :
    bootVariables.Steps Q (call c >>= f) s :=
  ⟨permitted_of_aside hc hs.started hs.running, fun r _ => hf r _ (hs.aside hc r)⟩

theorem steps_reboot {s : BootVariables} (hs : Cleaned s) :
    bootVariables.Steps (fun s' status => status = .success ∧ Finished s') reboot s := by
  refine ⟨⟨rfl, hs.running⟩, ?_⟩
  intro r _
  refine ⟨⟨rfl, hs.running⟩, ?_⟩
  intro r' _
  exact ⟨rfl, rfl, hs.exactly⟩

theorem steps_failAndReboot (gResult : SreLoaderResult) (status : Status) {s : BootVariables}
    (hs : Cleaned s) :
    bootVariables.Steps (fun s' status => status = .success ∧ Finished s')
      (failAndReboot gResult status) s :=
  (steps_aside (aside_writeResultToNvRam _) hs).bind fun _ _ => steps_reboot

theorem steps_registerRamDisk (gResult : SreLoaderResult) (wim : WimPages) {s : BootVariables}
    (hs : Cleaned s) :
    bootVariables.Steps (fun s' status => status = .success ∧ Finished s')
      (registerRamDisk gResult wim) s := by
  refine steps_aside_bind trivial hs ?_
  rintro ⟨status, _⟩ s hs
  dsimp only
  split
  · exact steps_failAndReboot gResult status hs
  refine steps_aside_bind trivial hs ?_
  rintro ⟨status, _⟩ s hs
  dsimp only
  split
  · exact steps_failAndReboot gResult status hs
  · apply (steps_aside (aside_writeResultToNvRam _) hs).bind
    intro s _ hs
    exact (steps_aside (aside_writeResultToNvRam _) hs).bind fun _ _ => steps_reboot

structure Fresh (s : BootVariables) : Prop where
  started : s.started = true
  running : s.reset = false
  unread : s.order = none
  untouched : s.cleaned = false

theorem Fresh.cleaned {s : BootVariables} (hs : Fresh s) : Cleaned s where
  started := hs.started
  running := hs.running
  exactly := by rw [hs.unread, hs.untouched]; simp

theorem Fresh.aside {s : BootVariables} (hs : Fresh s) {c : LoaderCall} (hc : Aside c)
    (r : LoaderAnswer c) : Fresh (noteCall s ⟨c, some r⟩) := by
  rw [noteCall_of_aside hc]
  exact ⟨hs.started, hs.running, hs.unread, hs.untouched⟩

theorem steps_fresh_bind {α : Type} {c : LoaderCall} {f : LoaderAnswer c → Loader α}
    {s : BootVariables} {Q : BootVariables → α → Prop} (hc : Aside c) (hs : Fresh s)
    (hf : ∀ r s', Fresh s' → bootVariables.Steps Q (f r) s') :
    bootVariables.Steps Q (call c >>= f) s :=
  ⟨permitted_of_aside hc hs.started hs.running, fun r _ => hf r _ (hs.aside hc r)⟩

theorem steps_writeCleanedBootOrder {size : ℕ} {order : Bytes} (hfits : order.length ≤ size)
    {s : BootVariables} (hs : Fresh { s with order := none }) (horder : s.order = some order) :
    bootVariables.Steps (fun s' _ => Cleaned s')
      (writeCleanedBootOrder size (splice (zeroed size) 0 order) order.length) s := by
  rw [writeCleanedBootOrder_eq hfits]
  have huntouched : s.cleaned = false := hs.untouched
  by_cases hneeds : NeedsCleaning order
  · rw [if_pos hneeds]
    refine ⟨⟨hs.started, hs.running, hs.untouched, order, horder, hneeds, rfl⟩, ?_⟩
    intro r _
    exact ⟨hs.started, hs.running, fun _ => ⟨order, horder, hneeds⟩, fun _ => rfl⟩
  · rw [if_neg hneeds]
    refine ⟨hs.started, hs.running, ?_⟩
    rw [huntouched, horder]
    simpa using hneeds

theorem aside_freePool : Only Aside (fw .freePool) := (only_call _).mpr trivial

theorem steps_freeBuffers {boBuf newBo : Bool} {s : BootVariables} (hs : Cleaned s) :
    bootVariables.Steps (fun s' _ => Cleaned s')
      (do
        if boBuf = true then
          fw .freePool
        if newBo = true then
          fw .freePool) s := by
  apply steps_aside _ hs
  cases boBuf <;> cases newBo
  · trivial
  · exact aside_freePool
  · exact aside_freePool.bind fun _ => trivial
  · exact aside_freePool.bind fun _ => aside_freePool

theorem steps_readBootOrder {size : ℕ} {s : BootVariables} (hs : Fresh s) {f : Loader Unit}
    (hf : ∀ s', Cleaned s' → bootVariables.Steps (fun s' _ => Cleaned s') f s') :
    bootVariables.Steps (fun s' _ => Cleaned s')
      (call (.gRTGetVariable .bootOrder size) >>= fun read =>
        if read.status.isError = false then do
          writeCleanedBootOrder size (splice (zeroed size) 0 read.data) read.dataSize
          f
        else f) s := by
  refine Monitor.Steps.call_bind ⟨hs.started, hs.running⟩ ?_
  intro read _
  change bootVariables.Steps _ _ (orderRead { s with cleared := false } (some read))
  by_cases hread : read.status.isError = false
  · obtain ⟨hlen, hle⟩ := read.fits hread
    have hfresh : Fresh { s with cleared := false, order := none } :=
      ⟨hs.started, hs.running, rfl, hs.untouched⟩
    rw [if_pos hread, orderRead_ok hread, ← hlen]
    exact (steps_writeCleanedBootOrder (hlen.trans_le hle) hfresh rfl).bind fun s' _ => hf s'
  · rw [if_neg hread, orderRead_error (by simpa using hread)]
    exact hf _ ⟨hs.started, hs.running, hs.cleaned.exactly⟩

/-- Asking for the size leaves no list behind that would have to be cleaned. -/
theorem Fresh.probed {s : BootVariables} (hs : Fresh s) (probe : VariableRead 0) :
    Cleaned (orderRead { s with cleared := false } (some probe)) := by
  by_cases hprobe : probe.status.isError = false
  · obtain ⟨hlen, hle⟩ := probe.fits hprobe
    have hempty : probe.data = [] := List.length_eq_zero_iff.mp (by omega)
    rw [orderRead_ok hprobe]
    refine ⟨hs.started, hs.running, ?_⟩
    rw [hempty]
    have huntouched := hs.untouched
    simp [huntouched, NeedsCleaning, keptOptions, chunksU16]
  · rw [orderRead_error (by simpa using hprobe)]
    exact ⟨hs.started, hs.running, hs.cleaned.exactly⟩

theorem steps_cleanBootOrder {s : BootVariables} (hs : Fresh s) :
    bootVariables.Steps (fun s' _ => Cleaned s') cleanBootOrder s := by
  refine Monitor.Steps.call_bind ⟨hs.started, hs.running⟩ ?_
  intro probe _
  change bootVariables.Steps _ _ (orderRead { s with cleared := false } (some probe))
  dsimp only
  by_cases hprobe : probe.status = efiBufferTooSmall ∧ probe.dataSize ≥ 2
  · have herror : probe.status.isError = true := by rw [hprobe.1]; rfl
    have hprobed : Fresh { s with cleared := false } :=
      ⟨hs.started, hs.running, hs.unread, hs.untouched⟩
    rw [if_pos hprobe, orderRead_error herror]
    refine steps_fresh_bind trivial hprobed ?_
    intro boBuf s hs
    refine steps_fresh_bind trivial hs ?_
    intro newBo s hs
    by_cases hboth : boBuf = true ∧ newBo = true
    · rw [if_pos hboth]
      exact steps_readBootOrder hs fun _ => steps_freeBuffers
    · rw [if_neg hboth]
      exact steps_freeBuffers hs.cleaned
  · -- the variable is absent, or too short to hold an entry
    rw [if_neg hprobe]
    exact hs.probed probe

theorem steps_entryPoint (imageHandle : Handle) :
    bootVariables.Steps (fun s' status => status = .success ∧ Finished s')
      (entryPoint imageHandle) {} := by
  refine ⟨⟨rfl, rfl⟩, ?_⟩
  intro r _
  have hfresh : Fresh { ({} : BootVariables) with started := true, cleared := true } :=
    ⟨rfl, rfl, rfl, rfl⟩
  refine (steps_cleanBootOrder hfresh).bind ?_
  intro s _ hs
  refine steps_aside_bind trivial hs ?_
  intro _ s hs
  refine (steps_aside (aside_writeResultToNvRam _) hs).bind ?_
  intro s _ hs
  refine (steps_aside (aside_loadWimIntoPages imageHandle _) hs).bind ?_
  rintro s ⟨gResult, loaded⟩ hs
  cases loaded with
  | error status => exact steps_failAndReboot gResult status hs
  | ok wim =>
    refine (steps_aside (aside_writeResultToNvRam _) hs).bind ?_
    intro s _ hs
    exact steps_registerRamDisk _ wim hs

/-- Whatever the firmware answers. -/
theorem entryPoint_bootVariables (imageHandle : Handle) (env : LoaderEnv) :
    let run := (entryPoint imageHandle).run env []
    Guarded (fun h c => Permitted (bootVariables.state h) c) run.1 ∧
      ∀ status, run.2 = some status →
        status = .success ∧ Finished (bootVariables.state run.1) :=
  (steps_entryPoint imageHandle).sound fun _ _ _ _ => trivial

end SreLoaderBootOrder
