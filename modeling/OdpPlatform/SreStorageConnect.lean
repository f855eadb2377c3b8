import OdpPlatform.LongestPrefix
import OdpPlatform.InteractionTraces
import OdpPlatform.SreStorageNvme
import Mathlib.Data.List.Chain

/-! # The targeted connect of the SRE storage device

The loop of ConnectStorageDevice counts nothing. It ends because the handle database only grows and
each connect that is followed by another matches strictly more of the target path. -/
namespace SreStorageConnect

open DevicePathNodes InteractionProgram InteractionTraces FirmwareServices SreStorageNvme
open LongestPrefix

/-- The handles with the nodes of their device paths, the terminating node left out. Installing a
device path that the database already holds is refused, so no two handles share one. -/
abbrev HandleDatabase := Table Handle Node

def nodesOf (path : DevicePath) : List Node := path.takeWhile fun n => !isDevicePathEnd [n]

/-- What LocateDevicePath documents, over a database that only grows. Where it fails, and what the
other services answer, is open. -/
structure ServesDatabase (database : FirmwareTrace → HandleDatabase) (env : FirmwareEnv) :
    Prop where
  grows : ∀ h e, database h ≤ database (h ++ [e])
  locates : ∀ h path status handle remainingPath,
    env h (.gBSLocateDevicePath path) = some (status, handle, remainingPath) →
      status.isError = false → ∃ p, (database h).Longest (nodesOf path) handle p ∧
        remainingPath = path.drop p.length

theorem isDevicePathEnd_cons (n : Node) (path : DevicePath) :
    isDevicePathEnd (n :: path) = isDevicePathEnd [n] := rfl

/-- What remains is the end node only behind the whole path. -/
theorem eq_nodesOf_of_end {p : List Node} {path : DevicePath} (hp : p <+: nodesOf path)
    (hend : isDevicePathEnd (path.drop p.length) = true) : p = nodesOf path := by
  induction p generalizing path with
  | nil =>
    cases path with
    | nil => rfl
    | cons n path =>
      rw [List.length_nil, List.drop_zero, isDevicePathEnd_cons] at hend
      rw [nodesOf, List.takeWhile_cons_of_neg (by simp [hend])]
  | cons m p ih =>
    cases path with
    | nil => simp [nodesOf] at hp
    | cons n path =>
      by_cases hn : isDevicePathEnd [n] = true
      · rw [nodesOf, List.takeWhile_cons_of_neg (by simp [hn])] at hp
        simp at hp
      · have hcons : nodesOf (n :: path) = n :: nodesOf path :=
          List.takeWhile_cons_of_pos (by simpa using hn)
        rw [hcons] at hp ⊢
        rcases List.cons_prefix_cons.mp hp with ⟨rfl, hrest⟩
        rw [ih hrest hend]

theorem ServesDatabase.le_append {database : FirmwareTrace → HandleDatabase} {env : FirmwareEnv}
    (hserves : ServesDatabase database env) (h τ : FirmwareTrace) :
    database h ≤ database (h ++ τ) := by
  induction τ generalizing h with
  | nil => rw [List.append_nil]
  | cons e τ ih =>
    rw [List.append_cons]
    exact (hserves.grows h e).trans (ih (h ++ [e]))

def locatedOf (e : Event Answer) : Option Handle :=
  match e with
  | ⟨.gBSLocateDevicePath _, some (status, handle, _)⟩ =>
    if status.isError then none else some handle
  | _ => none

/-- The handles that LocateDevicePath returned, in order. -/
def located (τ : FirmwareTrace) : List Handle := τ.filterMap locatedOf

structure LoopLaw (database : FirmwareTrace → HandleDatabase) (targetPath : DevicePath)
    (h τ : FirmwareTrace) (x : Option (Status × Handle)) : Prop where
  terminates : x = none → Unanswered τ
  advances : (located τ).IsChain fun a b =>
    a = b ∨ (database (h ++ τ)).Further (nodesOf targetPath) a b
  success : ∀ status handle, x = some (status, handle) → status.isError = false →
    ∃ pre post, τ = pre ++ ⟨.gBSConnectController handle, some status⟩ :: post ∧
      (handle, nodesOf targetPath) ∈ (database (h ++ pre)).entries
  sameHandle : ∀ pre handle post, located τ = pre ++ handle :: handle :: post →
    post = [] ∧ ∀ r, x = some r → r.1 = efiNotFound

structure TargetedConnect (database : FirmwareTrace → HandleDatabase) (targetPath : DevicePath)
    (h τ : FirmwareTrace) (x : Option (Status × Handle)) : Prop
    extends LoopLaw database targetPath h τ x where
  freed : ∀ r, x = some r →
    ∃ pre, τ = pre ++ [⟨.freePool, some ()⟩] ∧ ∀ e ∈ pre, e.call ≠ .freePool

def lookup (targetPath : DevicePath) (a : Option (Status × Handle × DevicePath)) : Event Answer :=
  ⟨.gBSLocateDevicePath targetPath, a⟩

def connect (handle : Handle) (a : Option Status) : Event Answer :=
  ⟨.gBSConnectController handle, a⟩

structure NewHandle (env : FirmwareEnv) (targetPath : DevicePath) (previousHandle : Handle)
    (h : FirmwareTrace) (status : Status) (handle : Handle) (remainingPath : DevicePath) :
    Prop where
  answer : env h (.gBSLocateDevicePath targetPath) = some (status, handle, remainingPath)
  noError : status.isError = false
  ne : previousHandle ≠ handle

inductive Connecting (env : FirmwareEnv) (targetPath : DevicePath) :
    Handle → FirmwareTrace → FirmwareTrace → Option (Status × Handle) → Prop where
  | notLocated {previousHandle h} : env h (.gBSLocateDevicePath targetPath) = none →
      Connecting env targetPath previousHandle h [lookup targetPath none] none
  | locateFailed {previousHandle h status handle remainingPath} :
      env h (.gBSLocateDevicePath targetPath) = some (status, handle, remainingPath) →
      status.isError = true →
      Connecting env targetPath previousHandle h
        [lookup targetPath (some (status, handle, remainingPath))] (some (status, handle))
  | sameHandle {h status handle remainingPath} :
      env h (.gBSLocateDevicePath targetPath) = some (status, handle, remainingPath) →
      status.isError = false →
      Connecting env targetPath handle h
        [lookup targetPath (some (status, handle, remainingPath))] (some (efiNotFound, handle))
  | notConnected {previousHandle h status handle remainingPath} :
      NewHandle env targetPath previousHandle h status handle remainingPath →
      env (h ++ [lookup targetPath (some (status, handle, remainingPath))])
        (.gBSConnectController handle) = none →
      Connecting env targetPath previousHandle h
        [lookup targetPath (some (status, handle, remainingPath)), connect handle none] none
  | connectFailed {previousHandle h status handle remainingPath result} :
      NewHandle env targetPath previousHandle h status handle remainingPath →
      env (h ++ [lookup targetPath (some (status, handle, remainingPath))])
        (.gBSConnectController handle) = some result →
      result.isError = true →
      Connecting env targetPath previousHandle h
        [lookup targetPath (some (status, handle, remainingPath)), connect handle (some result)]
        (some (result, handle))
  | connected {previousHandle h status handle remainingPath result} :
      NewHandle env targetPath previousHandle h status handle remainingPath →
      env (h ++ [lookup targetPath (some (status, handle, remainingPath))])
        (.gBSConnectController handle) = some result →
      result.isError = false → isDevicePathEnd remainingPath = true →
      Connecting env targetPath previousHandle h
        [lookup targetPath (some (status, handle, remainingPath)), connect handle (some result)]
        (some (result, handle))
  | again {previousHandle h status handle remainingPath result τ x} :
      NewHandle env targetPath previousHandle h status handle remainingPath →
      env (h ++ [lookup targetPath (some (status, handle, remainingPath))])
        (.gBSConnectController handle) = some result →
      result.isError = false → isDevicePathEnd remainingPath = false →
      Connecting env targetPath handle
        (h ++ [lookup targetPath (some (status, handle, remainingPath)),
          connect handle (some result)]) τ x →
      Connecting env targetPath previousHandle h
        (lookup targetPath (some (status, handle, remainingPath)) ::
          connect handle (some result) :: τ) x

theorem connectLoop_succ (targetPath : DevicePath) (fuel : ℕ) (previousHandle : Handle) :
    connectLoop targetPath (fuel + 1) previousHandle =
      .ask (.gBSLocateDevicePath targetPath) fun a =>
        if a.1.isError then .done (a.1, a.2.1)
        else if previousHandle = a.2.1 then .done (efiNotFound, a.2.1)
        else .ask (.gBSConnectController a.2.1) fun result =>
          if result.isError then .done (result, a.2.1)
          else if isDevicePathEnd a.2.2 then .done (result, a.2.1)
          else connectLoop targetPath fuel a.2.1 := rfl

variable {database : FirmwareTrace → HandleDatabase} {env : FirmwareEnv} {targetPath : DevicePath}
variable {previousHandle handle : Handle} {h τ ρ : FirmwareTrace} {status : Status}
variable {remainingPath : DevicePath} {x y : Option (Status × Handle)}

theorem NewHandle.run (hnew : NewHandle env targetPath previousHandle h status handle remainingPath)
    (fuel : ℕ) :
    (connectLoop targetPath (fuel + 1) previousHandle).run env h =
      (Program.ask (.gBSConnectController handle) fun result =>
        if result.isError then .done (result, handle)
        else if isDevicePathEnd remainingPath then .done (result, handle)
        else connectLoop targetPath fuel handle).run env
          (h ++ [lookup targetPath (some (status, handle, remainingPath))]) := by
  rw [connectLoop_succ, Program.run_ask_some env h _ hnew.answer]
  simp only [hnew.noError, hnew.ne, Bool.false_eq_true, if_false]
  rfl

def Unmatched (database : FirmwareTrace → HandleDatabase) (targetPath : DevicePath) (m : ℕ)
    (previousHandle : Handle) (h : FirmwareTrace) : Prop :=
  ∀ handle p, (database h).Longest (nodesOf targetPath) handle p → previousHandle ≠ handle →
    (nodesOf targetPath).length < m + p.length

theorem unmatched_start (previousHandle : Handle) (h : FirmwareTrace) :
    Unmatched database targetPath ((nodesOf targetPath).length + 1) previousHandle h := by
  intro handle p _ _
  omega

/-- A new handle leaves less of the target to the lookups behind it. -/
theorem Unmatched.next {m : ℕ} {p : List Node}
    (hm : Unmatched database targetPath m previousHandle h)
    (hp : (database h).Longest (nodesOf targetPath) handle p) (hne : previousHandle ≠ handle) :
    ∃ m' < m, ∀ h', database h ≤ database h' → Unmatched database targetPath m' handle h' := by
  have hless := hm handle p hp hne
  have hlength := hp.begins.length_le
  refine ⟨m - 1, by omega, fun h' hle handle' q hq hne' => ?_⟩
  have hlonger := hp.length_lt hle hq hne'
  omega

/-- The loop, entered with more than `m` on its counter, does what some derivation says. -/
def Settles (env : FirmwareEnv) (targetPath : DevicePath) (m : ℕ) (previousHandle : Handle)
    (h : FirmwareTrace) : Prop :=
  ∃ τ x, Connecting env targetPath previousHandle h τ x ∧ ∀ fuel, m ≤ fuel →
    (connectLoop targetPath (fuel + 1) previousHandle).run env h = (h ++ τ, x)

theorem NewHandle.settles {m m' : ℕ} (hm : m' < m)
    (hnew : NewHandle env targetPath previousHandle h status handle remainingPath)
    (hagain : ∀ result, Settles env targetPath m' handle
      (h ++ [lookup targetPath (some (status, handle, remainingPath)),
        connect handle (some result)])) :
    Settles env targetPath m previousHandle h := by
  cases hconnect : env (h ++ [lookup targetPath (some (status, handle, remainingPath))])
      (.gBSConnectController handle) with
  | none =>
    refine ⟨_, _, .notConnected hnew hconnect, fun fuel _ => ?_⟩
    rw [hnew.run, Program.run_ask_none env _ _ hconnect, List.append_assoc]
    rfl
  | some result =>
    by_cases hresult : result.isError = true
    · refine ⟨_, _, .connectFailed hnew hconnect hresult, fun fuel _ => ?_⟩
      rw [hnew.run, Program.run_ask_some env _ _ hconnect, List.append_assoc]
      simp only [hresult, if_true]
      rfl
    rw [Bool.not_eq_true] at hresult
    by_cases hend : isDevicePathEnd remainingPath = true
    · refine ⟨_, _, .connected hnew hconnect hresult hend, fun fuel _ => ?_⟩
      rw [hnew.run, Program.run_ask_some env _ _ hconnect, List.append_assoc]
      simp only [hresult, hend, Bool.false_eq_true, if_false, if_true]
      rfl
    rw [Bool.not_eq_true] at hend
    obtain ⟨τ, x, hrest, hrun⟩ := hagain result
    refine ⟨_, x, .again hnew hconnect hresult hend hrest, fun fuel hfuel => ?_⟩
    obtain ⟨fuel, rfl⟩ := Nat.exists_eq_add_one_of_ne_zero (by omega : fuel ≠ 0)
    rw [hnew.run, Program.run_ask_some env _ _ hconnect, List.append_assoc]
    simp only [hresult, hend, Bool.false_eq_true, if_false]
    refine (hrun fuel (by omega)).trans ?_
    rw [List.append_assoc]
    rfl

/-- By induction on the part of the target that is still unmatched. -/
theorem Unmatched.settles (hserves : ServesDatabase database env) {m : ℕ}
    (hm : Unmatched database targetPath m previousHandle h) :
    Settles env targetPath m previousHandle h := by
  induction m using Nat.strong_induction_on generalizing previousHandle h with
  | _ m ih =>
    cases hlookup : env h (.gBSLocateDevicePath targetPath) with
    | none =>
      refine ⟨_, _, .notLocated hlookup, fun fuel _ => ?_⟩
      rw [connectLoop_succ, Program.run_ask_none env h _ hlookup]
      rfl
    | some a =>
      rcases a with ⟨status, handle, remainingPath⟩
      by_cases hstatus : status.isError = true
      · refine ⟨_, _, .locateFailed hlookup hstatus, fun fuel _ => ?_⟩
        rw [connectLoop_succ, Program.run_ask_some env h _ hlookup]
        simp only [hstatus, if_true]
        rfl
      rw [Bool.not_eq_true] at hstatus
      by_cases hne : previousHandle = handle
      · subst hne
        refine ⟨_, _, .sameHandle hlookup hstatus, fun fuel _ => ?_⟩
        rw [connectLoop_succ, Program.run_ask_some env h _ hlookup]
        simp only [hstatus, Bool.false_eq_true, if_false, if_true]
        rfl
      rcases hserves.locates h _ _ _ _ hlookup hstatus with ⟨p, hp, -⟩
      rcases hm.next hp hne with ⟨m', hm', hnext⟩
      have hnew : NewHandle env targetPath previousHandle h status handle remainingPath :=
        ⟨hlookup, hstatus, hne⟩
      exact hnew.settles hm' fun result => ih m' hm' (hnext _ (hserves.le_append h _))

@[simp] theorem located_nil : located [] = [] := rfl

@[simp] theorem located_append : located (τ ++ ρ) = located τ ++ located ρ := List.filterMap_append

@[simp] theorem located_notLocated : located (lookup targetPath none :: τ) = located τ := rfl

@[simp] theorem located_connect (a : Option Status) :
    located (connect handle a :: τ) = located τ := rfl

theorem located_locateFailed (hstatus : status.isError = true) :
    located (lookup targetPath (some (status, handle, remainingPath)) :: τ) = located τ := by
  rw [located, List.filterMap_cons_none (by simp [locatedOf, lookup, hstatus])]
  rfl

theorem located_lookup (hstatus : status.isError = false) :
    located (lookup targetPath (some (status, handle, remainingPath)) :: τ) =
      handle :: located τ := by
  rw [located, List.filterMap_cons_some (by simp [locatedOf, lookup, hstatus] : _ = some handle)]
  rfl

theorem Connecting.unanswered (hc : Connecting env targetPath previousHandle h τ x)
    (hx : x = none) : Unanswered τ := by
  induction hc with
  | notLocated => exact unanswered_singleton _
  | notConnected => exact (unanswered_singleton _).append [_]
  | locateFailed | sameHandle | connectFailed | connected => cases hx
  | again _ _ _ _ _ ih => exact (ih hx).append [_, _]

theorem Connecting.not_freePool (hc : Connecting env targetPath previousHandle h τ x) :
    ∀ e ∈ τ, e.call ≠ .freePool := by
  induction hc with
  | again _ _ _ _ _ ih =>
    intro e he
    rcases List.mem_cons.mp he with rfl | he
    · nofun
    rcases List.mem_cons.mp he with rfl | he
    · nofun
    exact ih e he
  | _ => simp [lookup, connect]

/-- The loop succeeds with the connect of the handle that carries the whole path. -/
theorem Connecting.success (hserves : ServesDatabase database env)
    (hc : Connecting env targetPath previousHandle h τ x) (hx : x = some (status, handle))
    (hstatus : status.isError = false) :
    ∃ pre, τ = pre ++ [connect handle (some status)] ∧
      (handle, nodesOf targetPath) ∈ (database (h ++ pre)).entries := by
  induction hc with
  | notLocated | notConnected => cases hx
  | locateFailed _ herror | connectFailed _ _ herror =>
    cases hx
    rw [hstatus] at herror
    cases herror
  | sameHandle =>
    cases hx
    cases hstatus
  | connected hnew _ _ hend =>
    cases hx
    rcases hserves.locates _ _ _ _ _ hnew.answer hnew.noError with ⟨p, hp, rfl⟩
    refine ⟨[_], rfl, hserves.le_append _ _ ?_⟩
    rw [← eq_nodesOf_of_end hp.begins hend]
    exact hp.listed
  | again _ _ _ _ _ ih =>
    rcases ih hx with ⟨pre, rfl, hlisted⟩
    refine ⟨_ :: _ :: pre, rfl, ?_⟩
    rwa [List.append_assoc] at hlisted

/-- The first lookup fails, or it finds a handle; where that is the previous one, the loop ends. -/
theorem Connecting.first_located (hc : Connecting env targetPath previousHandle h τ x) :
    located τ = [] ∨ ∃ status handle remainingPath rest,
      env h (.gBSLocateDevicePath targetPath) = some (status, handle, remainingPath) ∧
        status.isError = false ∧ located τ = handle :: rest ∧
        (previousHandle = handle → rest = [] ∧ x = some (efiNotFound, handle)) := by
  cases hc with
  | notLocated => exact .inl rfl
  | locateFailed _ herror => exact .inl (located_locateFailed herror)
  | sameHandle hanswer hstatus =>
    exact .inr ⟨_, _, _, _, hanswer, hstatus, located_lookup hstatus, fun _ => ⟨rfl, rfl⟩⟩
  | notConnected hnew | connectFailed hnew | connected hnew | again hnew =>
    refine .inr ⟨_, _, _, _, hnew.answer, hnew.noError, located_lookup hnew.noError, ?_⟩
    exact fun hsame => absurd hsame hnew.ne

/-- One iteration after another locates the same handle, or it goes further along the target. -/
theorem Connecting.advances (hserves : ServesDatabase database env)
    (hc : Connecting env targetPath previousHandle h τ x) :
    (located τ).IsChain fun a b =>
      a = b ∨ (database (h ++ τ)).Further (nodesOf targetPath) a b := by
  induction hc with
  | notLocated => exact .nil
  | locateFailed _ herror =>
    rw [located_locateFailed herror]
    exact .nil
  | sameHandle _ hstatus =>
    rw [located_lookup hstatus]
    exact .singleton _
  | notConnected hnew | connectFailed hnew | connected hnew =>
    rw [located_lookup hnew.noError]
    exact .singleton _
  | @again _ h _ handle _ _ τ _ hnew _ _ _ hrest ih =>
    rw [List.append_assoc] at ih
    rw [located_lookup hnew.noError, located_connect]
    refine List.isChain_cons.mpr ⟨fun b hb => ?_, ih⟩
    by_cases hne : handle = b
    · exact .inl hne
    rcases hserves.locates h _ _ _ _ hnew.answer hnew.noError with ⟨p, hp, -⟩
    rcases hrest.first_located with hempty | ⟨_, b', _, _, hanswer, hstatus, hlocated, -⟩
    · rw [hempty] at hb
      cases hb
    rw [hlocated] at hb
    cases hb
    rcases hserves.locates _ _ _ _ _ hanswer hstatus with ⟨q, hq, -⟩
    have hfurther := (hp.further (hserves.le_append h _) hq hne).mono (hserves.le_append _ τ)
    rw [List.append_assoc] at hfurther
    exact .inr hfurther

/-- Locating one handle twice in a row is the end of the loop. -/
theorem Connecting.ends_at_same {pre post : List Handle}
    (hc : Connecting env targetPath previousHandle h τ x)
    (hsplit : located τ = pre ++ handle :: handle :: post) :
    post = [] ∧ ∀ r, x = some r → r.1 = efiNotFound := by
  induction hc generalizing pre with
  | notLocated => simp at hsplit
  | locateFailed _ herror => simp [located_locateFailed herror] at hsplit
  | sameHandle _ hstatus =>
    have hlength := congrArg List.length hsplit
    simp [located_lookup hstatus] at hlength
    omega
  | notConnected hnew | connectFailed hnew | connected hnew =>
    have hlength := congrArg List.length hsplit
    simp [located_lookup hnew.noError] at hlength
    omega
  | again hnew _ _ _ hrest ih =>
    rw [located_lookup hnew.noError, located_connect] at hsplit
    cases pre with
    | cons a pre => exact ih (List.cons.inj hsplit).2
    | nil =>
      rcases List.cons.inj hsplit with ⟨rfl, htail⟩
      rcases hrest.first_located with hempty | ⟨_, b, _, rest, -, -, hlocated, hend⟩
      · rw [hempty] at htail
        cases htail
      rw [htail] at hlocated
      rcases List.cons.inj hlocated with ⟨rfl, rfl⟩
      rcases hend rfl with ⟨hpost, rfl⟩
      refine ⟨hpost, fun r hr => ?_⟩
      cases hr
      rfl

theorem Connecting.law (hserves : ServesDatabase database env)
    (hc : Connecting env targetPath previousHandle h τ x) : LoopLaw database targetPath h τ x where
  terminates := hc.unanswered
  advances := hc.advances hserves
  success status handle hx hstatus := by
    rcases hc.success hserves hx hstatus with ⟨pre, hτ, hlisted⟩
    exact ⟨pre, [], hτ, hlisted⟩
  sameHandle _ _ _ hsplit := hc.ends_at_same hsplit

theorem loopLaw_refused : LoopLaw database targetPath h [] (some (efiInvalidParameter, 0)) where
  terminates := nofun
  advances := .nil
  success status handle hx hstatus := by
    cases hx
    cases hstatus
  sameHandle pre handle post hsplit := by simp at hsplit

/-- From the end of the loop on: the path is released, and the result of the loop returned. -/
inductive Releases (env : FirmwareEnv) (h : FirmwareTrace) :
    Option (Status × Handle) → FirmwareTrace → Option (Status × Handle) → Prop where
  | stuck : Releases env h none [] none
  | lost {r} : env h .freePool = none → Releases env h (some r) [⟨.freePool, none⟩] none
  | freed {r} : env h .freePool = some () → Releases env h (some r) [⟨.freePool, some ()⟩] (some r)

theorem releases_exists (env : FirmwareEnv) (h : FirmwareTrace) (x : Option (Status × Handle)) :
    ∃ ρ y, Releases env h x ρ y := by
  cases x with
  | none => exact ⟨_, _, .stuck⟩
  | some r =>
    cases hfree : env h .freePool with
    | none => exact ⟨_, _, .lost hfree⟩
    | some u => exact ⟨_, _, .freed hfree⟩

theorem Releases.run {p : Firmware (Status × Handle)}
    (hr : Releases env (h ++ τ) x ρ y) (hp : p.run env h = (h ++ τ, x)) :
    (p >>= fun r => ask .freePool >>= fun _ => .done r).run env h = (h ++ (τ ++ ρ), y) := by
  rw [← List.append_assoc]
  cases hr with
  | stuck => rw [Program.run_bind_none env h hp, List.append_nil]
  | lost hfree =>
    rw [Program.run_bind_some env h hp, ask, Program.call_bind, Program.run_ask_none env _ _ hfree]
  | freed hfree =>
    rw [Program.run_bind_some env h hp, ask, Program.call_bind, Program.run_ask_some env _ _ hfree]
    rfl

theorem Releases.law (hserves : ServesDatabase database env)
    (hr : Releases env (h ++ τ) x ρ y) (hlaw : LoopLaw database targetPath h τ x)
    (hheld : ∀ e ∈ τ, e.call ≠ .freePool) :
    TargetedConnect database targetPath h (τ ++ ρ) y := by
  have hlocated : located (τ ++ ρ) = located τ := by
    rw [located_append]
    cases hr <;> exact List.append_nil _
  have hreturned : ∀ r, y = some r → x = some r ∧ ρ = [⟨.freePool, some ()⟩] := by
    intro r hy
    cases hr with
    | freed => exact ⟨hy, rfl⟩
    | _ => cases hy
  refine ⟨⟨fun hy => ?_, ?_, ?_, ?_⟩, ?_⟩
  · cases hr with
    | stuck => rw [List.append_nil]; exact hlaw.terminates rfl
    | lost => exact (unanswered_singleton _).append τ
    | freed => cases hy
  · rw [hlocated, ← List.append_assoc]
    exact hlaw.advances.imp fun a b hab => hab.imp_right (·.mono (hserves.le_append _ ρ))
  · intro status handle hy hstatus
    rcases hlaw.success status handle (hreturned _ hy).1 hstatus with ⟨pre, post, rfl, hlisted⟩
    exact ⟨pre, post ++ ρ, by rw [List.append_assoc]; rfl, hlisted⟩
  · intro pre handle post hsplit
    rw [hlocated] at hsplit
    rcases hlaw.sameHandle pre handle post hsplit with ⟨hpost, hstatus⟩
    exact ⟨hpost, fun r hy => hstatus r (hreturned r hy).1⟩
  · intro r hy
    exact ⟨τ, by rw [(hreturned r hy).2], hheld⟩

def converted (targetPath : DevicePath) : Event Answer :=
  ⟨.convertTextToDevicePath, some (some targetPath)⟩

theorem run_connectStorageDevice
    (hconvert : env h .convertTextToDevicePath = some (some targetPath)) (fuel : ℕ) :
    (connectStorageDevice fuel).run env h =
      ((if isDevicePathEnd targetPath then .done (efiInvalidParameter, 0)
        else connectLoop targetPath fuel 0) >>= fun r =>
          ask .freePool >>= fun _ => .done r).run env (h ++ [converted targetPath]) := by
  unfold connectStorageDevice
  rw [ask, Program.call_bind, Program.run_ask_some env h _ hconvert]
  dsimp only
  by_cases hend : isDevicePathEnd targetPath = true
  · rw [if_pos hend, if_pos hend]
    rfl
  · rw [if_neg hend, if_neg hend]
    rfl

/-- Whatever the database holds at first and however it grows, with the path converted there is one
run for every counter that is large enough, and it returns unless a service never does. -/
theorem targeted_connect (hserves : ServesDatabase database env)
    (hconvert : env h .convertTextToDevicePath = some (some targetPath)) :
    ∃ τ x, TargetedConnect database targetPath (h ++ [converted targetPath]) τ x ∧
      ∀ fuel, (nodesOf targetPath).length + 1 < fuel →
        (connectStorageDevice fuel).run env h = (h ++ [converted targetPath] ++ τ, x) := by
  by_cases hend : isDevicePathEnd targetPath = true
  · rcases releases_exists env (h ++ [converted targetPath] ++ []) (some (efiInvalidParameter, 0))
      with ⟨ρ, y, hreleases⟩
    refine ⟨_, y, hreleases.law hserves loopLaw_refused nofun, fun fuel _ => ?_⟩
    rw [run_connectStorageDevice hconvert, if_pos hend]
    exact hreleases.run (by rw [Program.run_done, List.append_nil])
  · have hstart : Unmatched database targetPath ((nodesOf targetPath).length + 1) 0
        (h ++ [converted targetPath]) := unmatched_start 0 _
    rcases hstart.settles hserves with ⟨τ, x, hconnecting, hrun⟩
    rcases releases_exists env (h ++ [converted targetPath] ++ τ) x with ⟨ρ, y, hreleases⟩
    refine ⟨_, y, hreleases.law hserves (hconnecting.law hserves) hconnecting.not_freePool, ?_⟩
    intro fuel hfuel
    obtain ⟨fuel, rfl⟩ := Nat.exists_eq_add_one_of_ne_zero (by omega : fuel ≠ 0)
    rw [run_connectStorageDevice hconvert, if_neg hend]
    exact hreleases.run (hrun fuel (by omega))

def locateDevicePath (d : HandleDatabase) (path : DevicePath) : Status × Handle × DevicePath :=
  match d.lookup (nodesOf path) with
  | some (handle, p) => (.success, handle, path.drop p.length)
  | none => (efiNotFound, 0, path)

theorem locateDevicePath_longest {d : HandleDatabase} {path remainingPath : DevicePath}
    {status : Status} {handle : Handle}
    (hlocate : locateDevicePath d path = (status, handle, remainingPath))
    (hstatus : status.isError = false) :
    ∃ p, d.Longest (nodesOf path) handle p ∧ remainingPath = path.drop p.length := by
  unfold locateDevicePath at hlocate
  cases hlookup : d.lookup (nodesOf path) with
  | none =>
    rw [hlookup] at hlocate
    cases hlocate
    cases hstatus
  | some a =>
    rcases a with ⟨handle, p⟩
    rw [hlookup] at hlocate
    cases hlocate
    exact ⟨p, Table.lookup_eq_some.mp hlookup, rfl⟩

def pciRoot : Node := ⟨typeAcpi, 0x01, [0xD0, 0x41, 0x0A, 0x03, 0, 0, 0, 0]⟩

def pciFunction : Node := ⟨typeHardware, 0x01, [0, 6]⟩

def bridgeConnected (h : FirmwareTrace) : Bool :=
  h.any fun e => match e.call with
    | .gBSConnectController 1 => true
    | _ => false

/-- The controller gets its handle when the root bridge is connected. -/
def pciDatabase (h : FirmwareTrace) : HandleDatabase :=
  if bridgeConnected h then
    ⟨[(1, [pciRoot]), (2, [pciRoot, pciFunction])], by decide, by decide⟩
  else
    ⟨[(1, [pciRoot])], by decide, by decide⟩

def pciEnv : FirmwareEnv := fun h c =>
  match c with
  | .convertTextToDevicePath => some (some [pciRoot, pciFunction, endEntire])
  | .gBSLocateDevicePath path => some (locateDevicePath (pciDatabase h) path)
  | .gBSConnectController _ => some .success
  | .freePool => some ()
  | _ => none

theorem pciEnv_serves : ServesDatabase pciDatabase pciEnv where
  grows h e := by
    by_cases hbridge : bridgeConnected h = true
    · have hafter : bridgeConnected (h ++ [e]) = true := by
        rw [bridgeConnected, List.any_append, Bool.or_eq_true]
        exact .inl hbridge
      rw [pciDatabase, pciDatabase, if_pos hbridge, if_pos hafter]
    · rw [pciDatabase, if_neg hbridge, pciDatabase]
      split
      · exact List.subset_append_left [(1, [pciRoot])] _
      · exact le_rfl
  locates h path status handle remainingPath hanswer hstatus :=
    locateDevicePath_longest (Option.some.inj hanswer) hstatus

theorem pci_controller_connected :
    ((connectStorageDevice 4).run pciEnv []).2 = some (.success, 2) ∧
      ∃ τ x, TargetedConnect pciDatabase [pciRoot, pciFunction, endEntire]
          ([] ++ [converted [pciRoot, pciFunction, endEntire]]) τ x ∧
        ∀ fuel, (nodesOf [pciRoot, pciFunction, endEntire]).length + 1 < fuel →
          (connectStorageDevice fuel).run pciEnv [] =
            ([] ++ [converted [pciRoot, pciFunction, endEntire]] ++ τ, x) :=
  ⟨by decide, targeted_connect pciEnv_serves rfl⟩

end SreStorageConnect
