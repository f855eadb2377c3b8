import OdpPlatform.InteractionAnswers
import OdpPlatform.PatinaBootManager
import Mathlib.Order.WellFounded

/-! # When interleaving connect and dispatch stops

The loop compares the handle count of each round with the one before it. `Observed` names the
histories and the counts that successive rounds leave behind, also those after the loop stopped. -/
namespace PatinaInterleave

open InteractionProgram InteractionAnswers FirmwareServices PatinaBootHelpers PatinaBootManager

def FirstNonGrowing (c : ℕ → ℕ) (n : ℕ) : Prop :=
  (∀ k < n, c k < c (k + 1)) ∧ c (n + 1) ≤ c n

theorem exists_firstNonGrowing {c : ℕ → ℕ} (hc : ∃ n, c (n + 1) ≤ c n) :
    ∃ n, FirstNonGrowing c n := by
  refine ⟨Nat.find hc, fun k hk => ?_, Nat.find_spec hc⟩
  exact Nat.lt_of_not_le (Nat.find_min hc hk)

/-- A sequence that never stops growing has no bound. -/
theorem exists_firstNonGrowing_of_bounded {c : ℕ → ℕ} {B : ℕ} (hB : ∀ n, c n ≤ B) :
    ∃ n, FirstNonGrowing c n := by
  apply exists_firstNonGrowing
  by_contra hnone
  push Not at hnone
  have hmono : StrictMono c := strictMono_nat_of_lt_succ hnone
  have hlarge : B + 1 ≤ c (B + 1) := hmono.le_apply
  have hsmall : c (B + 1) ≤ B := hB (B + 1)
  omega

/-- One connect and dispatch round, and the handle count after it. -/
def round (connectFn : FirmwareE Unit) : FirmwareE ℕ := do
  connectFn
  let _ ← mapErr (ask .dispatch)
  totalHandleCount

theorem interleaveLoop_succ (connectFn : FirmwareE Unit) (fuel prevHandleCount : ℕ) :
    interleaveLoop connectFn (fuel + 1) prevHandleCount = (do
      let currHandleCount ← round connectFn
      if currHandleCount = prevHandleCount then
        pure ()
      else
        interleaveLoop connectFn fuel currHandleCount) := by
  simp only [interleaveLoop, round, bind_assoc]

/-- All connects and dispatches succeed; `H n` is the history after `n` rounds and `c n` the
handle count found there. -/
structure Observed (env : FirmwareEnv) (connectFn : FirmwareE Unit) (H : ℕ → FirmwareTrace)
    (c : ℕ → ℕ) : Prop where
  first : totalHandleCount.run.run env [] = (H 0, some (.ok (c 0)))
  next : ∀ n, (round connectFn).run.run env (H n) = (H (n + 1), some (.ok (c (n + 1))))

section Runs

variable {env : FirmwareEnv} {connectFn : FirmwareE Unit} {H : ℕ → FirmwareTrace} {c : ℕ → ℕ}

theorem Observed.loop_step (hobs : Observed env connectFn H c) (fuel n : ℕ) :
    (interleaveLoop connectFn (fuel + 1) (c n)).run.run env (H n) =
      if c (n + 1) = c n then (H (n + 1), some (.ok ()))
      else (interleaveLoop connectFn fuel (c (n + 1))).run.run env (H (n + 1)) := by
  rw [interleaveLoop_succ, ExceptT.run_bind, Program.run_bind_some env _ (hobs.next n)]
  dsimp only
  split
  · rfl
  · rfl

theorem Observed.run_interleave (hobs : Observed env connectFn H c) (fuel : ℕ) :
    (interleaveConnectAndDispatch fuel connectFn).run.run env [] =
      (interleaveLoop connectFn fuel (c 0)).run.run env (H 0) := by
  rw [interleaveConnectAndDispatch, ExceptT.run_bind, Program.run_bind_some env _ hobs.first]

/-- Rounds that change the count leave the loop running. -/
theorem Observed.run_changing (hobs : Observed env connectFn H c) (fuel : ℕ) {n : ℕ}
    (hchange : ∀ k < n, c (k + 1) ≠ c k) :
    (interleaveConnectAndDispatch (fuel + n) connectFn).run.run env [] =
      (interleaveLoop connectFn fuel (c n)).run.run env (H n) := by
  induction n generalizing fuel with
  | zero => exact hobs.run_interleave fuel
  | succ n ih =>
    have hearlier : ∀ k < n, c (k + 1) ≠ c k := fun k hk => hchange k (Nat.lt_succ_of_lt hk)
    have hlast : c (n + 1) ≠ c n := hchange n (Nat.lt_succ_self n)
    rw [← Nat.add_assoc, Nat.add_right_comm, ih (fuel + 1) hearlier, hobs.loop_step, if_neg hlast]

/-- The loop returns after the first round that leaves the count as it was. -/
theorem Observed.run_stop (hobs : Observed env connectFn H c) {n fuel : ℕ} (hfuel : n < fuel)
    (hchange : ∀ k < n, c (k + 1) ≠ c k) (hstop : c (n + 1) = c n) :
    (interleaveConnectAndDispatch fuel connectFn).run.run env [] = (H (n + 1), some (.ok ())) := by
  obtain ⟨m, rfl⟩ : ∃ m, fuel = m + 1 + n := ⟨fuel - n - 1, by omega⟩
  rw [hobs.run_changing (m + 1) hchange, hobs.loop_step, if_pos hstop]

/-- As long as each round changes the count the loop does not return. -/
theorem Observed.run_out (hobs : Observed env connectFn H c) {n : ℕ}
    (hchange : ∀ k < n, c (k + 1) ≠ c k) :
    ((interleaveConnectAndDispatch n connectFn).run.run env []).2 = none := by
  have hrun := hobs.run_changing 0 hchange
  rw [Nat.zero_add] at hrun
  rw [hrun]
  rfl

end Runs

/-- The loop returns at the first round that does not grow, and it returns whenever the counts are
bounded. -/
def StopsWhenGrowthStops (env : FirmwareEnv) (connectFn : FirmwareE Unit)
    (H : ℕ → FirmwareTrace) (c : ℕ → ℕ) : Prop :=
  (∀ n, FirstNonGrowing c n → ∀ fuel > n,
    (interleaveConnectAndDispatch fuel connectFn).run.run env [] = (H (n + 1), some (.ok ()))) ∧
  ∀ B, (∀ n, c n ≤ B) → ∃ enough, ∀ fuel ≥ enough, ∃ h',
    (interleaveConnectAndDispatch fuel connectFn).run.run env [] = (h', some (.ok ()))

def NeverShrinksFirst (c : ℕ → ℕ) : Prop := ∀ n, FirstNonGrowing c n → c (n + 1) = c n

theorem FirstNonGrowing.changes {c : ℕ → ℕ} {n : ℕ} (hn : FirstNonGrowing c n) :
    ∀ k < n, c (k + 1) ≠ c k := fun k hk => (hn.1 k hk).ne'

theorem stopsWhenGrowthStops_iff {env : FirmwareEnv} {connectFn : FirmwareE Unit}
    {H : ℕ → FirmwareTrace} {c : ℕ → ℕ} (hobs : Observed env connectFn H c) :
    StopsWhenGrowthStops env connectFn H c ↔ NeverShrinksFirst c := by
  constructor
  · intro hstops n hn
    by_contra hshrinks
    have hchange : ∀ k < n + 1, c (k + 1) ≠ c k := by
      intro k hk
      rcases Nat.lt_succ_iff_lt_or_eq.mp hk with hk | rfl
      · exact hn.changes k hk
      · exact hshrinks
    have hreturns := hstops.1 n hn (n + 1) (Nat.lt_succ_self n)
    have hruns := hobs.run_out hchange
    rw [hreturns] at hruns
    cases hruns
  · intro hnever
    have hreturns : ∀ n, FirstNonGrowing c n → ∀ fuel > n,
        (interleaveConnectAndDispatch fuel connectFn).run.run env [] =
          (H (n + 1), some (.ok ())) := fun n hn fuel hfuel =>
      hobs.run_stop hfuel hn.changes (hnever n hn)
    refine ⟨hreturns, fun B hB => ?_⟩
    obtain ⟨n, hn⟩ := exists_firstNonGrowing_of_bounded hB
    exact ⟨n + 1, fun fuel hfuel => ⟨H (n + 1), hreturns n hn fuel hfuel⟩⟩

/-- A platform strategy where every service succeeds and the enumeration after round `n` finds
`c n` handles; there are three calls a round. -/
def countingEnv (c : ℕ → ℕ) : FirmwareEnv := fun h call =>
  match call with
  | .locateHandleBuffer _ => some (.ok (List.range (c (h.length / 3))))
  | .strategyConnect => some (.ok ())
  | .dispatch => some (.ok true)
  | _ => none

def enumeration (count : ℕ) : Event Answer :=
  ⟨.locateHandleBuffer .allHandle, some (.ok (List.range count))⟩

def countingHistory (c : ℕ → ℕ) : ℕ → FirmwareTrace
  | 0 => [enumeration (c 0)]
  | n + 1 => countingHistory c n ++
      [⟨.strategyConnect, some (.ok ())⟩, ⟨.dispatch, some (.ok true)⟩, enumeration (c (n + 1))]

theorem length_countingHistory (c : ℕ → ℕ) (n : ℕ) :
    (countingHistory c n).length = 3 * n + 1 := by
  induction n with
  | zero => rfl
  | succ n ih =>
    rw [countingHistory, List.length_append, ih]
    simp only [List.length_cons, List.length_nil]
    omega

theorem run_totalHandleCount_counting (c : ℕ → ℕ) {h : FirmwareTrace} {n : ℕ}
    (hlength : h.length = 3 * n) :
    totalHandleCount.run.run (countingEnv c) h = (h ++ [enumeration (c n)], some (.ok (c n))) := by
  have hanswer : countingEnv c h (.locateHandleBuffer .allHandle) =
      some (.ok (List.range (c n))) := by
    simp only [countingEnv, hlength, Nat.mul_div_cancel_left n (by decide : 0 < 3)]
  rw [totalHandleCount, run_mapErr_bind, Program.call_bind, Program.run_ask_some _ _ _ hanswer]
  simp [enumeration]

/-- Every sequence of counts is observed by some firmware. -/
theorem observed_counting (c : ℕ → ℕ) :
    Observed (countingEnv c) ConnectController.platformStrategy.connect (countingHistory c) c where
  first := run_totalHandleCount_counting c (n := 0) rfl
  next n := by
    have hlength : (countingHistory c n ++ [(⟨.strategyConnect, some (.ok ())⟩ : Event Answer)] ++
        [(⟨.dispatch, some (.ok true)⟩ : Event Answer)]).length = 3 * (n + 1) := by
      simp only [List.length_append, length_countingHistory, List.length_cons, List.length_nil]
      omega
    have hcount := run_totalHandleCount_counting c hlength
    simp only [round, ConnectController.connect, run_mapErr_bind, Program.call_bind]
    rw [Program.run_ask_some (r := .ok ()) _ _ _ rfl,
      Program.run_ask_some (r := .ok true) _ _ _ rfl,
      hcount, countingHistory]
    simp

theorem settling_stopsWhenGrowthStops :
    StopsWhenGrowthStops (countingEnv (min 3)) ConnectController.platformStrategy.connect
      (countingHistory (min 3)) (min 3) := by
  apply (stopsWhenGrowthStops_iff (observed_counting (min 3))).mpr
  intro n hn
  have hmore : min 3 n ≤ min 3 (n + 1) := min_le_min_left 3 (Nat.le_succ n)
  exact Nat.le_antisymm hn.2 hmore

/-- A device that leaves with one round and comes back with the next. -/
def oscillating (n : ℕ) : ℕ := 2 - n % 2

theorem oscillating_changes (n : ℕ) : oscillating (n + 1) ≠ oscillating n := by
  unfold oscillating
  omega

theorem oscillating_never_returns :
    Observed (countingEnv oscillating) ConnectController.platformStrategy.connect
      (countingHistory oscillating) oscillating ∧
    (∀ n, oscillating n ≤ 2) ∧ FirstNonGrowing oscillating 0 ∧
    (∀ fuel, ((interleaveConnectAndDispatch fuel ConnectController.platformStrategy.connect).run.run
      (countingEnv oscillating) []).2 = none) ∧
    ¬StopsWhenGrowthStops (countingEnv oscillating) ConnectController.platformStrategy.connect
      (countingHistory oscillating) oscillating := by
  have hobs := observed_counting oscillating
  have hbound : ∀ n, oscillating n ≤ 2 := fun n => Nat.sub_le 2 (n % 2)
  have hnever : ∀ fuel, ((interleaveConnectAndDispatch fuel
      ConnectController.platformStrategy.connect).run.run (countingEnv oscillating) []).2 = none :=
    fun fuel => hobs.run_out fun k _ => oscillating_changes k
  refine ⟨hobs, hbound, ⟨nofun, by decide⟩, hnever, fun hstops => ?_⟩
  obtain ⟨enough, henough⟩ := hstops.2 2 hbound
  obtain ⟨h', hreturns⟩ := henough enough (Nat.le_refl enough)
  have hnone := hnever enough
  rw [hreturns] at hnone
  cases hnone

end PatinaInterleave
