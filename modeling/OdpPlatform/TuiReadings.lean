import OdpPlatform.InteractionMonitor
import OdpPlatform.TuiUpdaters

/-! # test-tui: what the published states say

Whatever the source answers, a published state is a function of the readings and commands so far:
of each metric the last reading that succeeded, and whether the last one did. -/
namespace TuiReadings

open EcScript InteractionProgram InteractionContract InteractionMonitor TuiSamples TuiUpdaters

section Lists

variable {β : Type} {rs : List (Except SourceError β)}

def oks (rs : List (Except SourceError β)) : List β :=
  rs.filterMap fun r =>
    match r with
    | .ok v => some v
    | .error _ => none

def latest (b : β) (rs : List (Except SourceError β)) : β := (oks rs).getLast?.getD b

def current (rs : List (Except SourceError β)) : Bool := rs.getLast?.any isOk

@[simp] theorem oks_snoc_ok (rs : List (Except SourceError β)) (v : β) :
    oks (rs ++ [.ok v]) = oks rs ++ [v] := by
  simp [oks, List.filterMap_append]

@[simp] theorem oks_snoc_error (rs : List (Except SourceError β)) (e : SourceError) :
    oks (rs ++ [.error e]) = oks rs := by
  simp [oks, List.filterMap_append]

@[simp] theorem latest_snoc_ok (b v : β) : latest b (rs ++ [.ok v]) = v := by
  simp [latest]

@[simp] theorem latest_snoc_error (b : β) (e : SourceError) :
    latest b (rs ++ [.error e]) = latest b rs := by
  simp [latest]

@[simp] theorem current_snoc (rs : List (Except SourceError β)) (r : Except SourceError β) :
    current (rs ++ [r]) = isOk r := by
  simp [current]

/-- What is kept of the readings: the last that succeeded, and whether the last one did. -/
structure Keeps (b : β) (rs : List (Except SourceError β)) (value : β) (success : Bool) : Prop where
  value : value = latest b rs
  success : success = current rs

theorem keeps_nil (b : β) : Keeps b [] b false := ⟨rfl, rfl⟩

theorem keeps_ok (b : β) (rs : List (Except SourceError β)) (v : β) :
    Keeps b (rs ++ [.ok v]) v true :=
  ⟨(latest_snoc_ok b v).symm, (current_snoc rs (.ok v)).symm⟩

theorem Keeps.error {b value : β} {success : Bool} (h : Keeps b rs value success)
    (e : SourceError) : Keeps b (rs ++ [.error e]) value false :=
  ⟨h.value.trans (latest_snoc_error b e).symm, (current_snoc rs (.error e)).symm⟩

end Lists

section Loops

variable {Cmd S U α σ : Type} {M : Monitor (@UpdaterAnswer Cmd S α) σ}

theorem steps_call_bind {β : Type} {c : UpdaterCall Cmd S α}
    {f : UpdaterAnswer c → Updater Cmd S α β} {Q : σ → β → Prop} {s : σ} (hc : M.permits s c)
    (hf : ∀ r, M.Steps Q (f r) (M.step s ⟨c, some r⟩)) : M.Steps Q (Program.call c >>= f) s :=
  ⟨hc, fun r _ => hf r⟩

/-- Each command is executed and recorded before the next is received. -/
theorem steps_processCommands {execute : Cmd → Updater Cmd S α Bool} {record : S → Cmd → Bool → S}
    {I : σ → S → Prop} (hrecv : ∀ s st, I s st → M.permits s .tryRecv)
    (hnone : ∀ s st, I s st → I (M.step s ⟨.tryRecv, some none⟩) st)
    (hsome : ∀ s st cmd, I s st → M.Steps (fun s' success =>
        M.permits s' (.publish (record st cmd success)) ∧
          I (M.step s' ⟨.publish (record st cmd success), some ()⟩) (record st cmd success))
      (execute cmd) (M.step s ⟨.tryRecv, some (some cmd)⟩)) (n : ℕ) :
    ∀ s st, I s st → M.Steps I (processCommands execute record n st) s := by
  induction n with
  | zero => exact fun _ _ _ => trivial
  | succ n ih =>
    intro s st hI
    refine steps_call_bind (hrecv s st hI) fun r => ?_
    cases r with
    | none => exact hnone s st hI
    | some cmd =>
      apply (hsome s st cmd hI).bind
      rintro s' success ⟨hpublish, hnext⟩
      exact steps_call_bind hpublish fun _ => ih _ _ hnext

/-- What holds from one tick to the next. -/
theorem steps_run {update : U → Updater Cmd S α U} {I : σ → U → Prop}
    (hupdate : ∀ s u, I s u → M.Steps (fun s' u' => M.permits s' .sleep ∧
      I (M.step s' ⟨.sleep, some ()⟩) u') (update u) s) (n : ℕ) :
    ∀ s u, I s u → M.Steps (fun _ _ => True) (run update n u) s := by
  induction n with
  | zero => exact fun _ _ _ => trivial
  | succ n ih =>
    intro s u hI
    apply (hupdate s u hI).bind
    rintro s' u' ⟨hsleep, hnext⟩
    exact steps_call_bind hsleep fun _ => ih _ _ hnext

end Loops

/-- What came over the channel, and what was executed and with what success. -/
structure Commands (Cmd : Type) where
  received : List Cmd := []
  executed : List (Cmd × Bool) := []

namespace Commands

variable {Cmd : Type} (cs : Commands Cmd)

def receive (cmd : Cmd) : Commands Cmd := { cs with received := cs.received ++ [cmd] }

def execute (cmd : Cmd) (success : Bool) : Commands Cmd :=
  { cs with executed := cs.executed ++ [(cmd, success)] }

def Settled : Prop := cs.received = cs.executed.map Prod.fst

def Holds (cmd : Cmd) : Prop := cs.received = cs.executed.map Prod.fst ++ [cmd]

variable {cs}

theorem Settled.receive (h : cs.Settled) (cmd : Cmd) : (cs.receive cmd).Holds cmd :=
  congrArg (· ++ [cmd]) h

theorem Holds.execute {cmd : Cmd} (h : cs.Holds cmd) (success : Bool) :
    (cs.execute cmd success).Settled := by
  rw [Settled, Commands.execute, List.map_append]
  exact h

def InHand (cs : Commands Cmd) : Prop :=
  ∃ hand : List Cmd, hand.length ≤ 1 ∧ cs.received = cs.executed.map Prod.fst ++ hand

theorem Settled.inHand (h : cs.Settled) : cs.InHand :=
  ⟨[], Nat.zero_le 1, h.trans (List.append_nil _).symm⟩

theorem Holds.inHand {cmd : Cmd} (h : cs.Holds cmd) : cs.InHand := ⟨[cmd], Nat.le_refl 1, h⟩

def lastOr (cmd : Cmd) (success : Bool) (cs : Commands Cmd) : Cmd × Bool :=
  cs.executed.getLast?.getD (cmd, success)

@[simp] theorem lastOr_execute (cmd₀ cmd : Cmd) (success₀ success : Bool) (cs : Commands Cmd) :
    (cs.execute cmd success).lastOr cmd₀ success₀ = (cmd, success) := by
  simp [lastOr, execute]

end Commands

section Battery

variable {F : Type} [Field F] [LinearOrder F] [HostNumber F]

structure BatteryLog where
  commands : Commands UInt32 := {}
  bst : List (Except SourceError BstReturn) := []
  bix : List (Except SourceError BixFixedStrings) := []

abbrev BatteryAnswer (F : Type) :=
  @UpdaterAnswer UInt32 (BatteryState F) F

def BatteryLog.note (log : BatteryLog) : Event (BatteryAnswer F) → BatteryLog
  | ⟨.tryRecv, some (some v)⟩ => { log with commands := log.commands.receive v }
  | ⟨.source (.setBtp v), some r⟩ => { log with commands := log.commands.execute v (isOk r) }
  | ⟨.source .getBst, some r⟩ => { log with bst := log.bst ++ [r] }
  | ⟨.source .getBix, some r⟩ => { log with bix := log.bix ++ [r] }
  | _ => log

def batteryLog (h : Trace (BatteryAnswer F)) : BatteryLog := h.foldl BatteryLog.note {}

structure BatteryShows (bst : BstReturn) (bix : BixFixedStrings) (log : BatteryLog)
    (s : BatteryState F) : Prop where
  bst : Keeps bst log.bst s.bst s.bstSuccess
  bix : Keeps bix log.bix s.bix s.bixSuccess
  samples : s.samples =
    session ofU32 batteryMaxSamples ((oks log.bst).map BstReturn.batteryRemainingCapacity)
  tMin : s.tMin = (oks log.bst).length
  btp : (s.btp, s.btpSuccess) = log.commands.lastOr 0 true

/-- The static information is asked for until it is there, and then no more. -/
def BatteryPermits (bst : BstReturn) (bix : BixFixedStrings) (log : BatteryLog) :
    UpdaterCall UInt32 (BatteryState F) F → Prop
  | .tryRecv | .source .getBst | .sleep => log.commands.Settled
  | .source (.setBtp v) => log.commands.Holds v
  | .source .getBix => log.commands.Settled ∧ oks log.bix = []
  | .source _ => False
  | .publish s => log.commands.Settled ∧ BatteryShows bst bix log s

variable (F) in
def batteryMonitor (bst : BstReturn) (bix : BixFixedStrings) :
    Monitor (BatteryAnswer F) BatteryLog where
  start := {}
  step := BatteryLog.note
  permits := BatteryPermits bst bix

variable {bst : BstReturn} {bix : BixFixedStrings} {log : BatteryLog} {s : BatteryState F}

theorem batteryShows_initial : BatteryShows bst bix {} (.initial bst bix : BatteryState F) :=
  ⟨keeps_nil bst, keeps_nil bix, rfl, rfl, rfl⟩

theorem BatteryShows.receive (h : BatteryShows bst bix log s) (v : UInt32) :
    BatteryShows bst bix { log with commands := log.commands.receive v } s :=
  ⟨h.bst, h.bix, h.samples, h.tMin, h.btp⟩

theorem BatteryShows.execute (h : BatteryShows bst bix log s) (v : UInt32) (success : Bool) :
    BatteryShows bst bix { log with commands := log.commands.execute v success }
      (recordBtp s v success) :=
  ⟨h.bst, h.bix, h.samples, h.tMin, (Commands.lastOr_execute ..).symm⟩

structure BatteryIdle (bst : BstReturn) (bix : BixFixedStrings) (log : BatteryLog)
    (u : BatteryUpdater F) : Prop where
  settled : log.commands.Settled
  shows : BatteryShows bst bix log u.state
  missing : u.bixCached = false → oks log.bix = []

theorem steps_setBtp {v : UInt32} (hv : log.commands.Holds v) :
    (batteryMonitor F bst bix).Steps (fun log' success =>
      log' = { log with commands := log.commands.execute v success }) (setBtp v) log :=
  steps_call_bind hv fun _ => rfl

theorem steps_batteryCommands (n : ℕ) {cached : Bool} (h : BatteryIdle bst bix log ⟨s, cached⟩) :
    (batteryMonitor F bst bix).Steps (fun log' s' => BatteryIdle bst bix log' ⟨s', cached⟩)
      (processCommands setBtp recordBtp n s) log := by
  refine steps_processCommands (I := fun log s => BatteryIdle bst bix log ⟨s, cached⟩)
    (fun _ _ h => h.settled) (fun _ _ h => h) ?_ n log s h
  intro log s v h
  have hholds := h.settled.receive v
  have hset := @steps_setBtp F _ _ _ bst bix (log.note (F := F) ⟨.tryRecv, some (some v)⟩) v
    hholds
  apply hset.mono
  rintro _ success rfl
  have hshows := (h.shows.receive v).execute v success
  exact ⟨⟨hholds.execute success, hshows⟩, hholds.execute success, hshows, h.missing⟩

theorem steps_pollBix (h : BatteryIdle bst bix log ⟨s, false⟩) :
    (batteryMonitor F bst bix).Steps (fun log' s' => BatteryIdle bst bix log' ⟨s', s'.bixSuccess⟩)
      (pollBix s) log := by
  have hmissing := h.missing rfl
  refine steps_call_bind ⟨h.settled, hmissing⟩ fun r => ?_
  cases r with
  | ok v =>
    refine ⟨h.settled, ?_, nofun⟩
    exact ⟨h.shows.bst, keeps_ok bix log.bix v, h.shows.samples, h.shows.tMin, h.shows.btp⟩
  | error e =>
    refine ⟨h.settled, ?_, fun _ => (oks_snoc_error _ e).trans hmissing⟩
    exact ⟨h.shows.bst, h.shows.bix.error e, h.shows.samples, h.shows.tMin, h.shows.btp⟩

/-- A new reading brings one sample, and a failure leaves the old reading where it was. -/
theorem steps_pollBst {cached : Bool} (h : BatteryIdle bst bix log ⟨s, cached⟩) :
    (batteryMonitor F bst bix).Steps
      (fun log' s' => BatteryIdle bst bix log' ⟨recordSample s', cached⟩) (pollBst s) log := by
  refine steps_call_bind h.settled fun r => ?_
  cases r with
  | ok v =>
    refine ⟨h.settled, ?_, h.missing⟩
    have hrecord : recordSample { s with bst := v, bstSuccess := true } =
        { s with
          bst := v
          bstSuccess := true
          samples := s.samples.insert ofU32 v.batteryRemainingCapacity
          tMin := s.tMin + 1 } := if_pos rfl
    rw [hrecord]
    refine ⟨keeps_ok bst log.bst v, h.shows.bix, ?_, ?_, h.shows.btp⟩
    · change s.samples.insert ofU32 v.batteryRemainingCapacity =
        session ofU32 batteryMaxSamples ((oks (log.bst ++ [.ok v])).map _)
      rw [oks_snoc_ok, List.map_append, List.map_singleton, session_append, h.shows.samples]
    · change s.tMin + 1 = (oks (log.bst ++ [.ok v])).length
      rw [oks_snoc_ok, List.length_append, List.length_singleton, h.shows.tMin]
  | error e =>
    refine ⟨h.settled, ?_, h.missing⟩
    have hrecord : recordSample { s with bstSuccess := false } = { s with bstSuccess := false } :=
      if_neg Bool.false_ne_true
    have hoks : oks (log.bst ++ [.error e]) = oks log.bst := oks_snoc_error _ e
    rw [hrecord]
    refine ⟨h.shows.bst.error e, h.shows.bix, ?_, ?_, h.shows.btp⟩
    · change s.samples = session ofU32 batteryMaxSamples ((oks (log.bst ++ [.error e])).map _)
      rw [hoks, h.shows.samples]
    · change s.tMin = (oks (log.bst ++ [.error e])).length
      rw [hoks, h.shows.tMin]

theorem steps_cacheBix {u : BatteryUpdater F} (h : BatteryIdle bst bix log u) :
    (batteryMonitor F bst bix).Steps (fun log' u' => BatteryIdle bst bix log' u') (cacheBix u)
      log := by
  rw [cacheBix]
  by_cases hcached : u.bixCached = true
  · rw [if_pos hcached]
    exact h
  · rw [if_neg hcached]
    rw [Bool.not_eq_true] at hcached
    have hasks : BatteryIdle bst bix log ⟨u.state, false⟩ :=
      ⟨h.settled, h.shows, fun _ => h.missing hcached⟩
    exact (steps_pollBix hasks).bind fun _ _ h => h

theorem steps_batteryUpdate (n : ℕ) {u : BatteryUpdater F} (h : BatteryIdle bst bix log u) :
    (batteryMonitor F bst bix).Steps (fun log' u' => log'.commands.Settled ∧
      BatteryIdle bst bix log' u') (batteryUpdate n u) log := by
  apply (steps_batteryCommands n h).bind
  intro log s h
  apply (steps_cacheBix h).bind
  rintro log ⟨s, cached⟩ h
  apply (steps_pollBst h).bind
  intro log s h
  exact steps_call_bind ⟨h.settled, h.shows⟩ fun _ => ⟨h.settled, h⟩

/-- Every call of the updater is one that the readings before it permit. -/
theorem steps_batteryRun (ticks n : ℕ) (bst : BstReturn) (bix : BixFixedStrings) :
    (batteryMonitor F bst bix).Steps (fun _ _ => True) (batteryRun ticks n bst bix) {} :=
  steps_run (I := BatteryIdle bst bix)
    (fun _ _ h => (steps_batteryUpdate n h).mono fun _ _ h => h) ticks _ _
    ⟨rfl, batteryShows_initial, fun _ => rfl⟩

end Battery

section Thermal

variable {F : Type}

structure ThermalLog (F : Type) where
  commands : Commands F := {}
  temp : List (Except SourceError F) := []
  rpm : List (Except SourceError F) := []
  minRpm : List (Except SourceError F) := []
  maxRpm : List (Except SourceError F) := []
  on : List (Except SourceError F) := []
  ramping : List (Except SourceError F) := []
  max : List (Except SourceError F) := []

abbrev ThermalAnswer (F : Type) := @UpdaterAnswer F (ThermalState F) F

def ThermalLog.note (log : ThermalLog F) : Event (ThermalAnswer F) → ThermalLog F
  | ⟨.tryRecv, some (some rpm)⟩ => { log with commands := log.commands.receive rpm }
  | ⟨.source (.setRpm rpm), some r⟩ => { log with commands := log.commands.execute rpm (isOk r) }
  | ⟨.source .getTemperature, some r⟩ => { log with temp := log.temp ++ [r] }
  | ⟨.source .getRpm, some r⟩ => { log with rpm := log.rpm ++ [r] }
  | ⟨.source .getMinRpm, some r⟩ => { log with minRpm := log.minRpm ++ [r] }
  | ⟨.source .getMaxRpm, some r⟩ => { log with maxRpm := log.maxRpm ++ [r] }
  | ⟨.source (.getThreshold .on), some r⟩ => { log with on := log.on ++ [r] }
  | ⟨.source (.getThreshold .ramping), some r⟩ => { log with ramping := log.ramping ++ [r] }
  | ⟨.source (.getThreshold .max), some r⟩ => { log with max := log.max ++ [r] }
  | _ => log

def thermalLog (h : Trace (ThermalAnswer F)) : ThermalLog F := h.foldl ThermalLog.note {}

/-- Two readings that count as one. -/
def bounds (min max : Except SourceError F) : Except SourceError (FanRpmBounds F) := do
  pure ⟨← min, ← max⟩

def levels (on : Except SourceError F) (above : Except SourceError F × Except SourceError F) :
    Except SourceError (FanStateLevels F) := do
  pure ⟨← on, ← above.1, ← above.2⟩

def ThermalLog.bounds (log : ThermalLog F) : List (Except SourceError (FanRpmBounds F)) :=
  List.zipWith TuiReadings.bounds log.minRpm log.maxRpm

def ThermalLog.levels (log : ThermalLog F) : List (Except SourceError (FanStateLevels F)) :=
  List.zipWith TuiReadings.levels log.on (List.zip log.ramping log.max)

structure ThermalLog.Even (log : ThermalLog F) (n : ℕ) : Prop where
  temp : log.temp.length = n
  rpm : log.rpm.length = n
  minRpm : log.minRpm.length = n
  maxRpm : log.maxRpm.length = n
  on : log.on.length = n
  ramping : log.ramping.length = n
  max : log.max.length = n

def ThermalLog.poll (log : ThermalLog F) (temp rpm min max on ramping top : Except SourceError F) :
    ThermalLog F where
  commands := log.commands
  temp := log.temp ++ [temp]
  rpm := log.rpm ++ [rpm]
  minRpm := log.minRpm ++ [min]
  maxRpm := log.maxRpm ++ [max]
  on := log.on ++ [on]
  ramping := log.ramping ++ [ramping]
  max := log.max ++ [top]

section Poll

variable {log : ThermalLog F} {n : ℕ} {temp rpm min max on ramping top : Except SourceError F}

theorem bounds_poll (h : log.Even n) : (log.poll temp rpm min max on ramping top).bounds =
    log.bounds ++ [bounds min max] :=
  List.zipWith_append (h.minRpm.trans h.maxRpm.symm)

theorem levels_poll (h : log.Even n) : (log.poll temp rpm min max on ramping top).levels =
    log.levels ++ [levels on (ramping, top)] := by
  have hzip : List.zip (log.ramping ++ [ramping]) (log.max ++ [top]) =
      List.zip log.ramping log.max ++ [(ramping, top)] :=
    List.zip_append (h.ramping.trans h.max.symm)
  have hlength : log.on.length = (List.zip log.ramping log.max).length := by
    rw [List.length_zip, h.on, h.ramping, h.max, Nat.min_self]
  rw [ThermalLog.levels, ThermalLog.poll]
  dsimp only
  rw [hzip, List.zipWith_append hlength]
  rfl

theorem ThermalLog.Even.poll (h : log.Even n) :
    (log.poll temp rpm min max on ramping top).Even (n + 1) := by
  constructor <;> simp [ThermalLog.poll, h.temp, h.rpm, h.minRpm, h.maxRpm, h.on, h.ramping, h.max]

end Poll

theorem recordBounds_frame (d : FanData F) (min max : Except SourceError F) :
    ∃ rpmBounds boundsSuccess, recordBounds d min max = { d with rpmBounds, boundsSuccess } := by
  cases min with
  | error e => exact ⟨_, _, rfl⟩
  | ok min =>
    cases max with
    | error e => exact ⟨_, _, rfl⟩
    | ok max => exact ⟨_, _, rfl⟩

theorem recordLevels_frame (d : FanData F) (on ramping max : Except SourceError F) :
    ∃ stateLevels levelsSuccess,
      recordLevels d on ramping max = { d with stateLevels, levelsSuccess } := by
  cases on with
  | error e => exact ⟨_, _, rfl⟩
  | ok on =>
    cases ramping with
    | error e => exact ⟨_, _, rfl⟩
    | ok ramping =>
      cases max with
      | error e => exact ⟨_, _, rfl⟩
      | ok max => exact ⟨_, _, rfl⟩

variable [Field F]

theorem keeps_recordBounds {d : FanData F} {rs : List (Except SourceError (FanRpmBounds F))}
    (h : Keeps ⟨0, 0⟩ rs d.rpmBounds d.boundsSuccess) (min max : Except SourceError F) :
    Keeps ⟨0, 0⟩ (rs ++ [bounds min max]) (recordBounds d min max).rpmBounds
      (recordBounds d min max).boundsSuccess := by
  cases min with
  | error e => exact h.error e
  | ok min =>
    cases max with
    | error e => exact h.error e
    | ok max => exact keeps_ok _ rs _

theorem keeps_recordLevels {d : FanData F} {rs : List (Except SourceError (FanStateLevels F))}
    (h : Keeps ⟨0, 0, 0⟩ rs d.stateLevels d.levelsSuccess) (on ramping max : Except SourceError F) :
    Keeps ⟨0, 0, 0⟩ (rs ++ [levels on (ramping, max)]) (recordLevels d on ramping max).stateLevels
      (recordLevels d on ramping max).levelsSuccess := by
  cases on with
  | error e => exact h.error e
  | ok on =>
    cases ramping with
    | error e => exact h.error e
    | ok ramping =>
      cases max with
      | error e => exact h.error e
      | ok max => exact keeps_ok _ rs _

variable [LinearOrder F]

theorem keeps_recordTemp {d : SensorData F} {rs : List (Except SourceError F)}
    (h : Keeps 0 rs d.skinTemp d.tempSuccess)
    (hsamples : d.samples = session id thermalMaxSamples (oks rs)) (r : Except SourceError F) :
    Keeps 0 (rs ++ [r]) (recordTemp d r).skinTemp (recordTemp d r).tempSuccess ∧
      (recordTemp d r).samples = session id thermalMaxSamples (oks (rs ++ [r])) := by
  cases r with
  | ok v =>
    refine ⟨keeps_ok 0 rs v, ?_⟩
    rw [oks_snoc_ok, session_append, ← hsamples]
    rfl
  | error e =>
    refine ⟨h.error e, ?_⟩
    rw [oks_snoc_error]
    exact hsamples

variable [HostNumber F]

theorem recordFanRpm_frame (d : FanData F) (r : Except SourceError F) :
    ∃ rpm samples rpmSuccess, recordFanRpm d r = { d with rpm, samples, rpmSuccess } := by
  cases r with
  | ok v => exact ⟨_, _, _, rfl⟩
  | error e => exact ⟨_, d.samples, _, rfl⟩

/-- A state of temperature and fan. The limits of a pair count when both were read in one tick. -/
structure ThermalShows (log : ThermalLog F) (s : ThermalState F) : Prop where
  even : log.Even s.t
  temp : Keeps 0 log.temp s.sensor.skinTemp s.sensor.tempSuccess
  tempSamples : s.sensor.samples = session id thermalMaxSamples (oks log.temp)
  thresholds : 0 < s.t → s.sensor.thresholds = sensorThresholds ∧
    s.sensor.thresholdsSuccess = true
  rpm : Keeps 0 log.rpm s.fan.rpm s.fan.rpmSuccess
  rpmSamples : s.fan.samples =
    session ofU32 thermalMaxSamples ((oks log.rpm).map HostNumber.toU32)
  bounds : Keeps ⟨0, 0⟩ log.bounds s.fan.rpmBounds s.fan.boundsSuccess
  levels : Keeps ⟨0, 0, 0⟩ log.levels s.fan.stateLevels s.fan.levelsSuccess
  limit : (s.rpmLimit, s.rpmSetSuccess) = log.commands.lastOr 0 false

def ThermalPermits (log : ThermalLog F) : UpdaterCall F (ThermalState F) F → Prop
  | .tryRecv | .source .getTemperature | .source .getRpm | .source .getMinRpm
  | .source .getMaxRpm | .source (.getThreshold _) | .sleep => log.commands.Settled
  | .source (.setRpm rpm) => log.commands.Holds rpm
  | .source _ => False
  | .publish s => log.commands.Settled ∧ ThermalShows log s

variable (F) in
def thermalMonitor : Monitor (ThermalAnswer F) (ThermalLog F) where
  start := {}
  step := ThermalLog.note
  permits := ThermalPermits

structure ThermalIdle (log : ThermalLog F) (s : ThermalState F) : Prop where
  settled : log.commands.Settled
  shows : ThermalShows log s

variable {log : ThermalLog F} {s : ThermalState F}

theorem thermalShows_initial : ThermalShows {} (.initial : ThermalState F) where
  even := ⟨rfl, rfl, rfl, rfl, rfl, rfl, rfl⟩
  temp := keeps_nil 0
  tempSamples := rfl
  thresholds h := absurd h (Nat.lt_irrefl 0)
  rpm := keeps_nil 0
  rpmSamples := rfl
  bounds := keeps_nil _
  levels := keeps_nil _
  limit := rfl

theorem ThermalShows.receive (h : ThermalShows log s) (rpm : F) :
    ThermalShows { log with commands := log.commands.receive rpm } s :=
  ⟨⟨h.even.temp, h.even.rpm, h.even.minRpm, h.even.maxRpm, h.even.on, h.even.ramping, h.even.max⟩,
    h.temp, h.tempSamples, h.thresholds, h.rpm, h.rpmSamples, h.bounds, h.levels, h.limit⟩

theorem ThermalShows.execute (h : ThermalShows log s) (rpm : F) (success : Bool) :
    ThermalShows { log with commands := log.commands.execute rpm success }
      (recordRpm s rpm success) :=
  ⟨⟨h.even.temp, h.even.rpm, h.even.minRpm, h.even.maxRpm, h.even.on, h.even.ramping, h.even.max⟩,
    h.temp, h.tempSamples, h.thresholds, h.rpm, h.rpmSamples, h.bounds, h.levels,
    (Commands.lastOr_execute ..).symm⟩

theorem keeps_recordFanRpm {d : FanData F} {rs : List (Except SourceError F)}
    (h : Keeps 0 rs d.rpm d.rpmSuccess)
    (hsamples : d.samples = session ofU32 thermalMaxSamples ((oks rs).map HostNumber.toU32))
    (r : Except SourceError F) :
    Keeps 0 (rs ++ [r]) (recordFanRpm d r).rpm (recordFanRpm d r).rpmSuccess ∧
      (recordFanRpm d r).samples =
        session ofU32 thermalMaxSamples ((oks (rs ++ [r])).map HostNumber.toU32) := by
  cases r with
  | ok v =>
    refine ⟨keeps_ok 0 rs v, ?_⟩
    rw [oks_snoc_ok, List.map_append, List.map_singleton, session_append, ← hsamples]
    rfl
  | error e =>
    refine ⟨h.error e, ?_⟩
    rw [oks_snoc_error]
    exact hsamples

/-- Each metric of the new state comes from its own reading. -/
theorem thermalShows_poll (h : ThermalShows log s)
    (temp rpm min max on ramping top : Except SourceError F) :
    ThermalShows (log.poll temp rpm min max on ramping top)
      { s with
        sensor :=
          { recordTemp s.sensor temp with
            thresholds := sensorThresholds
            thresholdsSuccess := true }
        fan := recordLevels (recordBounds (recordFanRpm s.fan rpm) min max) on ramping top
        t := s.t + 1 } := by
  have hrpm := keeps_recordFanRpm h.rpm h.rpmSamples rpm
  have hbounds : Keeps ⟨0, 0⟩ log.bounds (recordFanRpm s.fan rpm).rpmBounds
      (recordFanRpm s.fan rpm).boundsSuccess := by
    obtain ⟨_, _, _, hfan⟩ := recordFanRpm_frame s.fan rpm
    rw [hfan]
    exact h.bounds
  have hlevels : Keeps ⟨0, 0, 0⟩ log.levels
      (recordBounds (recordFanRpm s.fan rpm) min max).stateLevels
      (recordBounds (recordFanRpm s.fan rpm) min max).levelsSuccess := by
    obtain ⟨_, _, _, hfan⟩ := recordFanRpm_frame s.fan rpm
    obtain ⟨_, _, hbounds⟩ := recordBounds_frame (recordFanRpm s.fan rpm) min max
    rw [hbounds, hfan]
    exact h.levels
  have hbounds := keeps_recordBounds hbounds min max
  have hlevels := keeps_recordLevels hlevels on ramping top
  have htemp := keeps_recordTemp h.temp h.tempSamples temp
  obtain ⟨_, _, hframe⟩ := recordBounds_frame (recordFanRpm s.fan rpm) min max
  obtain ⟨_, _, hframe'⟩ :=
    recordLevels_frame (recordBounds (recordFanRpm s.fan rpm) min max) on ramping top
  constructor
  case even => exact h.even.poll
  case temp => exact htemp.1
  case tempSamples => exact htemp.2
  case thresholds => exact fun _ => ⟨rfl, rfl⟩
  case rpm =>
    rw [hframe', hframe]
    exact hrpm.1
  case rpmSamples =>
    rw [hframe', hframe]
    exact hrpm.2
  case bounds =>
    rw [bounds_poll h.even, hframe']
    exact hbounds
  case levels =>
    rw [levels_poll h.even]
    exact hlevels
  case limit => exact h.limit

theorem steps_setRpm {rpm : F} (hrpm : log.commands.Holds rpm) :
    (thermalMonitor F).Steps (fun log' success =>
      log' = { log with commands := log.commands.execute rpm success }) (setRpm rpm) log :=
  steps_call_bind hrpm fun _ => rfl

theorem steps_thermalCommands (n : ℕ) (h : ThermalIdle log s) :
    (thermalMonitor F).Steps ThermalIdle (processCommands setRpm recordRpm n s) log := by
  refine steps_processCommands (I := ThermalIdle) (fun _ _ h => h.settled) (fun _ _ h => h) ?_
    n log s h
  intro log s rpm h
  have hholds := h.settled.receive rpm
  have hset := @steps_setRpm F _ _ _ (log.note ⟨.tryRecv, some (some rpm)⟩) rpm hholds
  apply hset.mono
  rintro _ success rfl
  have hshows := (h.shows.receive rpm).execute rpm success
  exact ⟨⟨hholds.execute success, hshows⟩, hholds.execute success, hshows⟩

theorem steps_thermalUpdate (n : ℕ) (h : ThermalIdle log s) :
    (thermalMonitor F).Steps (fun log' s' => log'.commands.Settled ∧ ThermalIdle log' s')
      (thermalUpdate n s) log := by
  apply (steps_thermalCommands n h).bind
  intro log s h
  refine steps_call_bind h.settled fun temp => ?_
  refine steps_call_bind h.settled fun rpm => ?_
  refine steps_call_bind h.settled fun min => ?_
  refine steps_call_bind h.settled fun max => ?_
  refine steps_call_bind h.settled fun on => ?_
  refine steps_call_bind h.settled fun ramping => ?_
  refine steps_call_bind h.settled fun top => ?_
  have hshows := thermalShows_poll h.shows temp rpm min max on ramping top
  exact steps_call_bind ⟨h.settled, hshows⟩ fun _ => ⟨h.settled, h.settled, hshows⟩

theorem steps_thermalRun (ticks n : ℕ) :
    (thermalMonitor F).Steps (fun _ _ => True) (thermalRun ticks n) {} :=
  steps_run (I := ThermalIdle) (fun _ _ h => steps_thermalUpdate n h) ticks _ _
    ⟨rfl, thermalShows_initial⟩

end Thermal

section Rtc

variable {α : Type}

structure TimerLog where
  value : List (Except SourceError UInt32) := []
  policy : List (Except SourceError UInt32) := []
  status : List (Except SourceError TimerStatus) := []

structure RtcLog where
  caps : List (Except SourceError TimeAlarmDeviceCapabilities) := []
  timestamp : List (Except SourceError AcpiTimestamp) := []
  timer : AcpiTimerId → TimerLog := fun _ => {}

def RtcLog.noteTimer (log : RtcLog) (id : AcpiTimerId) (timer : TimerLog) : RtcLog :=
  { log with timer := Function.update log.timer id timer }

theorem timer_noteTimer {id id' : AcpiTimerId} (h : id ≠ id') (log : RtcLog) (timer : TimerLog) :
    (log.noteTimer id' timer).timer id = log.timer id := Function.update_of_ne h _ _

abbrev RtcAnswer (α : Type) := @UpdaterAnswer Empty RtcState α

def RtcLog.note (log : RtcLog) : Event (RtcAnswer α) → RtcLog
  | ⟨.source .getCapabilities, some r⟩ => { log with caps := log.caps ++ [r] }
  | ⟨.source .getRealTime, some r⟩ => { log with timestamp := log.timestamp ++ [r] }
  | ⟨.source (.getTimerValue id), some r⟩ =>
    log.noteTimer id { log.timer id with value := (log.timer id).value ++ [r] }
  | ⟨.source (.getExpiredTimerWakePolicy id), some r⟩ =>
    log.noteTimer id { log.timer id with policy := (log.timer id).policy ++ [r] }
  | ⟨.source (.getWakeStatus id), some r⟩ =>
    log.noteTimer id { log.timer id with status := (log.timer id).status ++ [r] }
  | _ => log

def rtcLog (h : Trace (RtcAnswer α)) : RtcLog := h.foldl RtcLog.note {}

def TimerLog.last (log : TimerLog) : TimerData :=
  ⟨log.value.getLast?, log.policy.getLast?, log.status.getLast?⟩

/-- A state of the clock: the last answers, failures too. -/
structure RtcShows (log : RtcLog) (s : RtcState) : Prop where
  capabilities : s.capabilities = log.caps.getLast?
  timestamp : s.timestamp = log.timestamp.getLast?
  acTimer : s.acTimer = (log.timer .acPower).last
  dcTimer : s.dcTimer = (log.timer .dcPower).last

/-- The capabilities are asked for until they are there, and then no more. -/
def RtcPermits (log : RtcLog) : UpdaterCall Empty RtcState α → Prop
  | .source .getCapabilities => oks log.caps = []
  | .source .getRealTime | .source (.getTimerValue _) | .source (.getExpiredTimerWakePolicy _)
  | .source (.getWakeStatus _) | .sleep => True
  | .tryRecv | .source _ => False
  | .publish s => RtcShows log s

variable (α) in
def rtcMonitor : Monitor (RtcAnswer α) RtcLog where
  start := {}
  step := RtcLog.note
  permits := RtcPermits

structure RtcIdle (log : RtcLog) (u : RtcUpdater) : Prop where
  shows : RtcShows log u.state
  missing : u.rtcCapsCached = false → oks log.caps = []

structure RtcAsked (log : RtcLog) (u : RtcUpdater)
    (caps : Fetched TimeAlarmDeviceCapabilities) : Prop where
  capabilities : (caps.orElse fun _ => u.state.capabilities) = log.caps.getLast?
  missing : (u.rtcCapsCached || caps.any isOk) = false → oks log.caps = []

variable {log : RtcLog} {u : RtcUpdater}

theorem steps_fetchCaps (h : RtcIdle log u) :
    (rtcMonitor α).Steps (fun log' caps => RtcAsked log' u caps) (fetchCaps u) log := by
  rw [fetchCaps]
  by_cases hcached : u.rtcCapsCached = true
  · rw [if_pos hcached]
    refine ⟨h.shows.capabilities, fun hno => ?_⟩
    rw [hcached] at hno
    cases hno
  · rw [if_neg hcached]
    rw [Bool.not_eq_true] at hcached
    have hmissing := h.missing hcached
    refine steps_call_bind hmissing fun r => ⟨List.getLast?_concat.symm, fun hno => ?_⟩
    cases r with
    | ok v =>
      rw [hcached] at hno
      cases hno
    | error e => exact (oks_snoc_error _ e).trans hmissing

theorem steps_readTimer (id : AcpiTimerId) (log : RtcLog) :
    (rtcMonitor α).Steps (fun log' timer => log' = log.noteTimer id (log'.timer id) ∧
      timer = (log'.timer id).last) (readTimer id) log := by
  refine steps_call_bind trivial fun value => ?_
  refine steps_call_bind trivial fun policy => ?_
  refine steps_call_bind trivial fun status => ?_
  simp [rtcMonitor, RtcLog.note, RtcLog.noteTimer, TimerLog.last, Monitor.steps_done]

theorem steps_rtcUpdate (h : RtcIdle log u) :
    (rtcMonitor α).Steps (fun log' u' => RtcIdle log' u') (rtcUpdate u) log := by
  apply (steps_fetchCaps h).bind
  intro log caps hasked
  refine steps_call_bind trivial fun timestamp => ?_
  apply (steps_readTimer .acPower _).bind
  rintro log₁ ac ⟨hlog₁, hac⟩
  apply (steps_readTimer .dcPower _).bind
  rintro log₂ dc ⟨hlog₂, hdc⟩
  have hcaps : log₂.caps = log.caps := by rw [hlog₂, RtcLog.noteTimer, hlog₁]; rfl
  have hshows : RtcShows log₂
      { capabilities := caps.orElse fun _ => u.state.capabilities
        timestamp := some timestamp
        acTimer := ac
        dcTimer := dc } := by
    constructor
    case capabilities =>
      rw [hcaps]
      exact hasked.capabilities
    case timestamp =>
      rw [hlog₂, RtcLog.noteTimer, hlog₁]
      exact List.getLast?_concat.symm
    case acTimer =>
      have hother : AcpiTimerId.acPower ≠ .dcPower := by decide
      rw [hac, hlog₂, timer_noteTimer hother]
    case dcTimer => exact hdc
  refine steps_call_bind hshows fun _ => ⟨hshows, fun hno => ?_⟩
  rw [← hasked.missing hno, ← hcaps]
  rfl

theorem steps_rtcRun (ticks : ℕ) :
    (rtcMonitor α).Steps (fun _ _ => True) (rtcRun ticks) {} := by
  have hstart : RtcIdle {} ⟨.initial, false⟩ := ⟨⟨rfl, rfl, rfl, rfl⟩, fun _ => rfl⟩
  exact steps_run (I := RtcIdle)
    (fun _ _ h => (steps_rtcUpdate h).mono fun _ _ h => ⟨trivial, h⟩) ticks _ _ hstart

end Rtc

end TuiReadings
