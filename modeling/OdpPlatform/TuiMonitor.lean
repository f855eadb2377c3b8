import OdpPlatform.InteractionThreads
import OdpPlatform.TuiDialogs
import OdpPlatform.TuiReadings

/-! # test-tui: the whole monitor

The user interface and the updaters run side by side. Commands cross two channels; the source may
answer anything. -/
namespace TuiMonitor

open CharText EcScript EcScriptParser InteractionProgram InteractionContract InteractionMonitor
  InteractionThreads Threads TuiApp TuiDialogs TuiReadings TuiUpdaters

section Ui

variable {I F : Type} [TextField I] [HostDecimal F]

structure UiLog (F : Type) where
  events : List TerminalEvent := []
  sent : List (Command F) := []

def UiLog.note (log : UiLog F) : Event (UiAnswer (α := F)) → UiLog F
  | ⟨.read, some (.ok evt)⟩ => { log with events := log.events ++ [evt] }
  | ⟨.send cmd, some _⟩ => { log with sent := log.sent ++ [cmd] }
  | _ => log

def uiLog (h : Trace (UiAnswer (α := F))) : UiLog F := h.foldl UiLog.note {}

variable (I) in
/-- An event is read when the last one is dealt with, and none once the program is to end. -/
def UiPermits (log : UiLog F) : UiCall F → Prop
  | .draw | .poll | .read =>
    log.sent = emitted I F log.events ∧ (after I F log.events).runState = .running
  | .send cmd => emitted I F log.events = log.sent ++ [cmd]

variable (I F) in
def uiMonitor : Monitor (UiAnswer (α := F)) (UiLog F) where
  start := {}
  step := UiLog.note
  permits := UiPermits I

variable {log : UiLog F}

theorem steps_ask_bind {β : Type} {c : UiCall F} {f : UiAnswer c → Ui F β}
    {Q : UiLog F → β → Prop} (hc : UiPermits I log c)
    (hf : ∀ r, (uiMonitor I F).Steps Q (f r) (log.note ⟨c, some r⟩)) :
    (uiMonitor I F).Steps Q (ask c >>= f) log :=
  ⟨hc, fun r _ => hf r⟩

theorem steps_send {cmd : Option (Command F)}
    (h : emitted I F log.events = log.sent ++ cmd.toList) :
    (uiMonitor I F).Steps (fun log' _ => log'.events = log.events ∧
      log'.sent = emitted I F log.events) (send cmd) log := by
  cases cmd with
  | none =>
    rw [Option.toList_none, List.append_nil] at h
    exact ⟨rfl, h.symm⟩
  | some cmd => exact steps_ask_bind h fun _ => ⟨rfl, h.symm⟩

theorem steps_handleEvents (hsent : log.sent = emitted I F log.events)
    (hrunning : (after I F log.events).runState = .running) :
    (uiMonitor I F).Steps (fun log' r => ∀ app, r = .ok app →
        app = after I F log'.events ∧ log'.sent = emitted I F log'.events)
      ((after I F log.events).handleEvents) log := by
  refine steps_ask_bind ⟨hsent, hrunning⟩ fun r => ?_
  cases r with
  | error e => exact nofun
  | ok evt =>
    have hnext : emitted I F (log.events ++ [evt]) =
        log.sent ++ ((after I F log.events).dispatch evt).2.toList := by
      rw [emitted_snoc, hsent]
    have hsend := @steps_send _ _ _ _ (log.note ⟨.read, some (.ok evt)⟩) _ hnext
    apply hsend.bind
    rintro log' _ ⟨hevents, hdone⟩ app happ
    cases happ
    rw [hevents]
    exact ⟨(after_snoc log.events evt).symm, hdone⟩

/-- Every event is dealt with before the next is read. -/
theorem steps_uiRun (rounds : ℕ) : ∀ log : UiLog F, log.sent = emitted I F log.events →
    (uiMonitor I F).Steps (fun _ _ => True) ((after I F log.events).run rounds) log := by
  induction rounds with
  | zero => exact fun _ _ => trivial
  | succ rounds ih =>
    intro log hsent
    rw [App.run]
    by_cases hrunning : (after I F log.events).runState = .running
    · rw [if_pos hrunning]
      refine steps_ask_bind ⟨hsent, hrunning⟩ fun r => ?_
      cases r with
      | error e => trivial
      | ok _ =>
        refine steps_ask_bind ⟨hsent, hrunning⟩ fun r => ?_
        cases r with
        | error e => trivial
        | ok ready =>
          cases ready with
          | false => exact ih log hsent
          | true =>
            apply (steps_handleEvents hsent hrunning).bind
            intro log' r hr
            cases r with
            | error e => trivial
            | ok app =>
              obtain ⟨rfl, hdone⟩ := hr app rfl
              exact ih log' hdone
    · rw [if_neg hrunning]
      trivial

end Ui

/-- Exact numbers instead of `f64`. -/
instance : HostDecimal ℚ where
  eq a b := a == b
  lt a b := a < b
  le a b := a ≤ b
  isFinite _ := true
  ofInt n := n
  toU32 q := UInt32.ofNat (min q.floor.toNat (2 ^ 32 - 1))
  text := toString
  ofDecimal negative digits exponent := (if negative then -1 else 1) * digits * 10 ^ exponent
  infinity _ := 0
  nan _ := 0

def noBst : BstReturn := ⟨0, 0, 0, 0⟩
def noBix : BixFixedStrings := ⟨0, 0, 0, 0, 0, 0, 0, 0, 0, 0, 0, 0, 0, 0⟩

abbrev ok {β : Type} (x : β) : Except IoError β := .ok x

inductive Task where
  | ui | battery | thermal | rtc
  deriving DecidableEq, Repr

section System

variable {I F : Type}

variable (F) in
abbrev TaskCall : Task → Type
  | .ui => UiCall F
  | .battery => UpdaterCall UInt32 (BatteryState F) F
  | .thermal => UpdaterCall F (ThermalState F) F
  | .rtc => UpdaterCall Empty RtcState F

variable (F) in
abbrev TaskAnswer : ∀ i, TaskCall F i → Type
  | .ui => UiAnswer
  | .battery => BatteryAnswer F
  | .thermal => ThermalAnswer F
  | .rtc => RtcAnswer F

abbrev TaskResult : Task → Type
  | .ui => Except IoError Unit
  | .battery | .thermal | .rtc => Unit

def btpOf : Command F → Option UInt32
  | .setBtp v => some v
  | .setRpm _ => none

def rpmOf : Command F → Option F
  | .setBtp _ => none
  | .setRpm rpm => some rpm

def sends {T : Type} (kind : Command F → Option T) : Event (UiAnswer (α := F)) → Option T
  | ⟨.send cmd, some _⟩ => kind cmd
  | _ => none

def receives {Cmd S : Type} :
    Event (@UpdaterAnswer Cmd S F) → Option Cmd
  | ⟨.tryRecv, some r⟩ => r
  | _ => none

variable (F) in
def btpChannel : Channel (TaskAnswer F) UInt32 where
  sender := .ui
  receiver := .battery
  apart := by decide
  sends := sends btpOf
  receives := receives

variable (F) in
def rpmChannel : Channel (TaskAnswer F) F where
  sender := .ui
  receiver := .thermal
  apart := by decide
  sends := sends rpmOf
  receives := receives

/-- A receiver gets the oldest command that is waiting, or learns that none is. -/
def allows (past : ∀ i, Trace (TaskAnswer F i)) : (i : Task) → (c : TaskCall F i) →
    TaskAnswer F i c → Prop
  | .battery, .tryRecv, r =>
    r = (pending ((btpChannel F).sent past) ((btpChannel F).received past)).head?
  | .thermal, .tryRecv, r =>
    r = (pending ((rpmChannel F).sent past) ((rpmChannel F).received past)).head?
  | _, _, _ => True

theorem btpChannel_ordered : (btpChannel F).Ordered allows := by
  intro past c r x hr hx
  cases c with
  | tryRecv =>
    have hanswer : r = some x := hx
    rw [← hanswer]
    exact hr.symm
  | source c => cases hx
  | publish st => cases hx
  | sleep => cases hx

theorem rpmChannel_ordered : (rpmChannel F).Ordered allows := by
  intro past c r x hr hx
  cases c with
  | tryRecv =>
    have hanswer : r = some x := hx
    rw [← hanswer]
    exact hr.symm
  | source c => cases hx
  | publish st => cases hx
  | sleep => cases hx

variable [TextField I] [HostDecimal F]

theorem sent_ui {T : Type} (kind : Command F → Option T) (h : Trace (UiAnswer (α := F))) :
    ((uiMonitor I F).state h).sent.filterMap kind = h.filterMap (sends kind) := by
  refine Monitor.projection (fun log : UiLog F => log.sent.filterMap kind) rfl ?_ h
  rintro log ⟨c, a⟩
  cases c with
  | send cmd =>
    cases a with
    | none => exact (List.append_nil _).symm
    | some r =>
      change (log.sent ++ [cmd]).filterMap kind = _ ++ (kind cmd).toList
      rw [List.filterMap_append]
      cases hcmd : kind cmd with
      | none => rw [List.filterMap_cons_none hcmd]; rfl
      | some x => rw [List.filterMap_cons_some hcmd]; rfl
  | read => rcases a with _ | (_ | _) <;> exact (List.append_nil _).symm
  | draw => exact (List.append_nil _).symm
  | poll => exact (List.append_nil _).symm

variable [Field F] [LinearOrder F]

structure Bounds where
  rounds : ℕ
  ticks : ℕ
  commands : ℕ

variable (I F) in
def program (n : Bounds) (bst : BstReturn) (bix : BixFixedStrings) :
    ∀ i, Program (TaskAnswer F i) (TaskResult i)
  | .ui => (App.new : App I).run n.rounds
  | .battery => batteryRun n.ticks n.commands bst bix
  | .thermal => thermalRun n.ticks n.commands
  | .rtc => rtcRun n.ticks

variable (F) in
abbrev TaskLog : Task → Type
  | .ui => UiLog F
  | .battery => BatteryLog
  | .thermal => ThermalLog F
  | .rtc => RtcLog

variable (I F) in
def monitors (bst : BstReturn) (bix : BixFixedStrings) :
    ∀ i, Monitor (TaskAnswer F i) (TaskLog F i)
  | .ui => uiMonitor I F
  | .battery => batteryMonitor F bst bix
  | .thermal => thermalMonitor F
  | .rtc => rtcMonitor F

theorem program_verified (n : Bounds) (bst : BstReturn) (bix : BixFixedStrings) :
    Verified allows (program I F n bst bix) (monitors I F bst bix) where
  relies past i c r _ := by cases i <;> trivial
  steps i := by
    cases i with
    | ui => exact steps_uiRun n.rounds {} rfl
    | battery => exact steps_batteryRun n.ticks n.commands bst bix
    | thermal => exact steps_thermalRun n.ticks n.commands
    | rtc => exact steps_rtcRun n.ticks

theorem received_battery (bst : BstReturn) (bix : BixFixedStrings) (h : Trace (BatteryAnswer F)) :
    ((batteryMonitor F bst bix).state h).commands.received = h.filterMap receives := by
  refine Monitor.projection (fun log : BatteryLog => log.commands.received) rfl ?_ h
  rintro log ⟨c, a⟩
  cases c with
  | tryRecv =>
    rcases a with _ | (_ | v)
    · exact (List.append_nil _).symm
    · exact (List.append_nil _).symm
    · rfl
  | source c => cases c <;> cases a <;> exact (List.append_nil _).symm
  | publish st => exact (List.append_nil _).symm
  | sleep => exact (List.append_nil _).symm

theorem received_thermal (h : Trace (ThermalAnswer F)) :
    ((thermalMonitor F).state h).commands.received = h.filterMap receives := by
  refine Monitor.projection (fun log : ThermalLog F => log.commands.received) rfl ?_ h
  rintro log ⟨c, a⟩
  cases c with
  | tryRecv =>
    rcases a with _ | (_ | v)
    · exact (List.append_nil _).symm
    · exact (List.append_nil _).symm
    · rfl
  | source c =>
    cases c with
    | getThreshold t => cases t <;> cases a <;> exact (List.append_nil _).symm
    | _ => cases a <;> exact (List.append_nil _).symm
  | publish st => exact (List.append_nil _).symm
  | sleep => exact (List.append_nil _).symm

/-- The commands that were typed, in their order: those executed, at most one in the hands of the
updater, those that wait, and at most one not sent yet. -/
def Delivered {T : Type} (executed waiting typed : List T) : Prop :=
  ∃ hand late : List T, hand.length ≤ 1 ∧ late.length ≤ 1 ∧
    executed ++ hand ++ waiting ++ late = typed

theorem delivered {Cmd : Type} {cs : Commands Cmd} {sent typed : List Cmd}
    (hhand : cs.InHand) (hearlier : cs.received <+: sent)
    (hlate : ∃ late : List Cmd, late.length ≤ 1 ∧ typed = sent ++ late) :
    Delivered (cs.executed.map Prod.fst) (pending sent cs.received) typed := by
  obtain ⟨hand, hlength, hreceived⟩ := hhand
  obtain ⟨late, hlast, rfl⟩ := hlate
  refine ⟨hand, late, hlength, hlast, ?_⟩
  rw [← hreceived, received_pending hearlier]

section Reached

variable {n : Bounds} {bst : BstReturn} {bix : BixFixedStrings}
  {s : Threads (TaskAnswer F) TaskResult}

theorem inHand_battery (hs : Reachable allows (program I F n bst bix) s) :
    ((batteryMonitor F bst bix).state (s.past .battery)).commands.InHand := by
  refine thread_induction (i := Task.battery)
    (J := fun h => ((batteryMonitor F bst bix).state h).commands.InHand)
    (program_verified n bst bix) ⟨[], Nat.zero_le 1, rfl⟩ ?_ hs
  intro h c r hJ hpermits
  rw [Monitor.state_snoc]
  cases c with
  | tryRecv =>
    cases r with
    | none => exact hJ
    | some v => exact (Commands.Settled.receive hpermits v).inHand
  | source c =>
    cases c with
    | setBtp v => exact (Commands.Holds.execute hpermits _).inHand
    | _ => exact hJ
  | publish st => exact hJ
  | sleep => exact hJ

theorem inHand_thermal (hs : Reachable allows (program I F n bst bix) s) :
    ((thermalMonitor F).state (s.past .thermal)).commands.InHand := by
  refine thread_induction (i := Task.thermal)
    (J := fun h => ((thermalMonitor F).state h).commands.InHand)
    (program_verified n bst bix) ⟨[], Nat.zero_le 1, rfl⟩ ?_ hs
  intro h c r hJ hpermits
  rw [Monitor.state_snoc]
  cases c with
  | tryRecv =>
    cases r with
    | none => exact hJ
    | some rpm => exact (Commands.Settled.receive hpermits rpm).inHand
  | source c =>
    cases c with
    | setRpm rpm => exact (Commands.Holds.execute hpermits _).inHand
    | getThreshold t => cases t <;> exact hJ
    | _ => exact hJ
  | publish st => exact hJ
  | sleep => exact hJ

theorem late_ui (hs : Reachable allows (program I F n bst bix) s) :
    ∃ late : List (Command F), late.length ≤ 1 ∧
      emitted I F ((uiMonitor I F).state (s.past .ui)).events =
        ((uiMonitor I F).state (s.past .ui)).sent ++ late := by
  refine thread_induction (i := Task.ui)
    (J := fun h => ∃ late : List (Command F), late.length ≤ 1 ∧
      emitted I F ((uiMonitor I F).state h).events = ((uiMonitor I F).state h).sent ++ late)
    (program_verified n bst bix) ⟨[], Nat.zero_le 1, rfl⟩ ?_ hs
  intro h c r hJ hpermits
  rw [Monitor.state_snoc]
  cases c with
  | draw => exact hJ
  | poll => exact hJ
  | read =>
    cases r with
    | error e => exact hJ
    | ok evt =>
      have hsent : ((uiMonitor I F).state h).sent = emitted I F ((uiMonitor I F).state h).events :=
        hpermits.1
      refine ⟨_, ?_, (emitted_snoc _ evt).trans (congrArg (· ++ _) hsent.symm)⟩
      cases ((after I F ((uiMonitor I F).state h).events).dispatch (α := F) evt).2 with
      | none => exact Nat.zero_le 1
      | some cmd => exact Nat.le_refl 1
  | send cmd =>
    have hnext : emitted I F ((uiMonitor I F).state h).events =
        ((uiMonitor I F).state h).sent ++ [cmd] := hpermits
    exact ⟨[], Nat.zero_le 1, hnext.trans (List.append_nil _).symm⟩

variable (I) in
/-- No command is lost, executed twice or overtaken, and when an updater finds its channel empty
all that was sent is executed. -/
structure Delivery (s : Threads (TaskAnswer F) TaskResult) : Prop where
  btp : Delivered ((batteryLog (s.past .battery)).commands.executed.map Prod.fst)
    (pending ((btpChannel F).sent s.past) ((btpChannel F).received s.past))
    ((emitted I F (uiLog (s.past .ui)).events).filterMap btpOf)
  rpm : Delivered ((thermalLog (s.past .thermal)).commands.executed.map Prod.fst)
    (pending ((rpmChannel F).sent s.past) ((rpmChannel F).received s.past))
    ((emitted I F (uiLog (s.past .ui)).events).filterMap rpmOf)
  btpDrained : ∀ k, s.rest .battery = .ask .tryRecv k → allows s.past .battery .tryRecv none →
    (batteryLog (s.past .battery)).commands.executed.map Prod.fst = (btpChannel F).sent s.past
  rpmDrained : ∀ k, s.rest .thermal = .ask .tryRecv k → allows s.past .thermal .tryRecv none →
    (thermalLog (s.past .thermal)).commands.executed.map Prod.fst = (rpmChannel F).sent s.past

theorem late_kind {T : Type} (kind : Command F → Option T)
    (hs : Reachable allows (program I F n bst bix) s) :
    ∃ late : List T, late.length ≤ 1 ∧
      (emitted I F (uiLog (s.past .ui)).events).filterMap kind =
        (s.past .ui).filterMap (sends kind) ++ late := by
  obtain ⟨late, hlength, hlate⟩ := late_ui hs
  refine ⟨late.filterMap kind, (List.length_filterMap_le kind late).trans hlength, ?_⟩
  rw [← sent_ui (I := I) kind, ← List.filterMap_append]
  exact congrArg (List.filterMap kind) hlate

theorem commands_delivered (hs : Reachable allows (program I F n bst bix) s) : Delivery I s := by
  have hV := program_verified (I := I) (F := F) n bst bix
  have hbtp := Channel.received_prefix (btpChannel F) hV btpChannel_ordered hs
  have hrpm := Channel.received_prefix (rpmChannel F) hV rpmChannel_ordered hs
  have hbattery : (batteryLog (s.past .battery)).commands.received =
      (btpChannel F).received s.past := received_battery bst bix (s.past .battery)
  have hthermal : (thermalLog (s.past .thermal)).commands.received =
      (rpmChannel F).received s.past := received_thermal (s.past .thermal)
  constructor
  case btp =>
    rw [← hbattery] at hbtp ⊢
    exact delivered (inHand_battery hs) hbtp (late_kind btpOf hs)
  case rpm =>
    rw [← hthermal] at hrpm ⊢
    exact delivered (inHand_thermal hs) hrpm (late_kind rpmOf hs)
  case btpDrained =>
    intro k hask hnone
    have hsettled : (batteryLog (s.past .battery)).commands.Settled :=
      reachable_permits (i := Task.battery) hV hs hask
    rw [← hsettled, hbattery]
    exact received_all hbtp hnone.symm
  case rpmDrained =>
    intro k hask hnone
    have hsettled : (thermalLog (s.past .thermal)).commands.Settled :=
      reachable_permits (i := Task.thermal) hV hs hask
    rw [← hsettled, hthermal]
    exact received_all hrpm hnone.symm

/-- Three calls of the interface bring one key, and the updater takes the command when it is sent. -/
theorem commands_delivered_seven :
    ∃ s, Reachable allows (program Text ℚ ⟨4, 1, 2⟩ noBst noBix) s ∧ Delivery Text s ∧
      (batteryLog (s.past .battery)).commands.executed = [(7, true)] := by
  have hstart : Reachable allows (program Text ℚ ⟨4, 1, 2⟩ noBst noBix) _ := .refl
  have htab := ((hstart.next (i := Task.ui) (ok ()) rfl trivial).next (i := Task.ui) (ok true) rfl
    trivial).next (i := Task.ui) (ok (press (.char '2'))) rfl trivial
  have hopen := ((htab.next (i := Task.ui) (ok ()) rfl trivial).next (i := Task.ui) (ok true) rfl
    trivial).next (i := Task.ui) (ok (press (.char 's'))) rfl trivial
  have htyped := ((hopen.next (i := Task.ui) (ok ()) rfl trivial).next (i := Task.ui) (ok true) rfl
    trivial).next (i := Task.ui) (ok (press (.char '7'))) rfl trivial
  have henter := ((htyped.next (i := Task.ui) (ok ()) rfl trivial).next (i := Task.ui) (ok true) rfl
    trivial).next (i := Task.ui) (ok (press .enter)) rfl trivial
  have hsent := henter.next (i := Task.ui) true rfl trivial
  have hreceived := hsent.next (i := Task.battery) (some (7 : UInt32)) rfl (by
    change some 7 = List.head? _
    rfl)
  have hset := hreceived.next (i := Task.battery) (Except.ok () : Except SourceError Unit) rfl
    trivial
  exact ⟨_, hset, commands_delivered hset, rfl⟩

/-- What the user interface can read at any moment, and what is asked for only once. -/
structure Published (bst : BstReturn) (bix : BixFixedStrings)
    (s : Threads (TaskAnswer F) TaskResult) : Prop where
  battery : ∀ pre st a post, s.past .battery = pre ++ ⟨.publish st, a⟩ :: post →
    BatteryShows bst bix (batteryLog pre) st
  bix : ∀ pre a post, s.past .battery = pre ++ ⟨.source .getBix, a⟩ :: post →
    oks (batteryLog pre).bix = []
  thermal : ∀ pre st a post, s.past .thermal = pre ++ ⟨.publish st, a⟩ :: post →
    ThermalShows (thermalLog pre) st
  rtc : ∀ pre st a post, s.past .rtc = pre ++ ⟨.publish st, a⟩ :: post →
    RtcShows (rtcLog pre) st
  capabilities : ∀ pre a post, s.past .rtc = pre ++ ⟨.source .getCapabilities, a⟩ :: post →
    oks (rtcLog pre).caps = []

theorem states_published (hs : Reachable allows (program I F n bst bix) s) :
    Published bst bix s := by
  have hguarded := reachable_guarded (program_verified (I := I) (F := F) n bst bix) hs
  constructor
  case battery => exact fun pre st a post hsplit => (hguarded .battery pre _ post hsplit).2
  case bix => exact fun pre a post hsplit => (hguarded .battery pre _ post hsplit).2
  case thermal => exact fun pre st a post hsplit => (hguarded .thermal pre _ post hsplit).2
  case rtc => exact fun pre st a post hsplit => hguarded .rtc pre _ post hsplit
  case capabilities => exact fun pre a post hsplit => hguarded .rtc pre _ post hsplit

/-- A first tick without commands, and without the static information. -/
theorem states_published_firstTick :
    ∃ s, Reachable allows (program Text ℚ ⟨0, 1, 1⟩ noBst noBix) s ∧ Published noBst noBix s ∧
      ∃ st a, (s.past .battery).getLast? = some ⟨.publish st, a⟩ ∧
        st.bst = ⟨2, 10, 500, 12000⟩ ∧ st.bixSuccess = false ∧ st.tMin = 1 := by
  have hstart : Reachable allows (program Text ℚ ⟨0, 1, 1⟩ noBst noBix) _ := .refl
  have hdrained := hstart.next (i := Task.battery) (none : Option UInt32) rfl (by
    change none = List.head? _
    rfl)
  have hbix := hdrained.next (i := Task.battery)
    (Except.error ⟨"", .other⟩ : Except SourceError BixFixedStrings) rfl trivial
  have hbst := hbix.next (i := Task.battery)
    (Except.ok ⟨2, 10, 500, 12000⟩ : Except SourceError BstReturn) rfl trivial
  have hpublished := hbst.next (i := Task.battery) () rfl trivial
  exact ⟨_, hpublished, states_published hpublished, _, _, rfl, rfl, rfl, rfl⟩

end Reached

end System

end TuiMonitor
