import OdpPlatform.EcScriptBindings

/-! # test-script: what is_ok and is_err judge

A call is a source method with resolved arguments, or none where a setter's argument does not
resolve. Which accessor lists a result has does not depend on the answer, only on the method. -/
namespace EcScript

open InteractionProgram InteractionContract

variable {α : Type}

inductive Shape where
  | leaf
  | record (fields : List (String × Shape))

def Shape.hasPath : List String → Shape → Bool
  | [], _ => true
  | _ :: _, .leaf => false
  | seg :: path, .record fields =>
    match fields.find? fun field => field.1 == seg with
    | some (_, shape) => shape.hasPath path
    | none => false

mutual

def Value.shape : Value α → Shape
  | .struct fields => .record (fieldShapes fields)
  | .unit | .num _ | .bool _ => .leaf

def fieldShapes : List (String × Value α) → List (String × Shape)
  | [] => []
  | field :: rest => fieldShape field :: fieldShapes rest

def fieldShape : String × Value α → String × Shape
  | (k, v) => (k, v.shape)

end

theorem find_fieldShapes (seg : String) (fields : List (String × Value α)) :
    (fieldShapes fields).find? (fun field => field.1 == seg) =
      (fields.find? fun field => field.1 == seg).map fieldShape := by
  induction fields with
  | nil => rfl
  | cons field rest ih =>
    obtain ⟨k, v⟩ := field
    rw [fieldShapes, fieldShape, List.find?_cons, List.find?_cons]
    dsimp only
    cases k == seg with
    | true => rfl
    | false => exact ih

/-- A projection succeeds exactly on the paths of the value's shape. -/
theorem project_isOk_iff (path : List String) : ∀ v : Value α,
    (∃ w, v.project path = .ok w) ↔ v.shape.hasPath path = true := by
  induction path with
  | nil =>
    intro v
    exact iff_of_true ⟨v, rfl⟩ (by cases v <;> rfl)
  | cons seg path ih =>
    intro v
    rw [Value.project]
    cases v with
    | struct fields =>
      rw [Value.field, Value.shape, Shape.hasPath, find_fieldShapes]
      cases fields.find? fun field => field.1 == seg with
      | none => exact iff_of_false (by rintro ⟨w, ⟨⟩⟩) Bool.false_ne_true
      | some field =>
        obtain ⟨k, v⟩ := field
        exact ih v
    | unit => exact iff_of_false (by rintro ⟨w, ⟨⟩⟩) Bool.false_ne_true
    | num n => exact iff_of_false (by rintro ⟨w, ⟨⟩⟩) Bool.false_ne_true
    | bool b => exact iff_of_false (by rintro ⟨w, ⟨⟩⟩) Bool.false_ne_true

/-- The source method, or why a setter's argument does not resolve. -/
def sourceCall [HostNumber α] (m : Method α) (env : Env α) : Except String (SourceCall α) :=
  match m with
  | .getTemperature => .ok .getTemperature
  | .getRpm => .ok .getRpm
  | .getMinRpm => .ok .getMinRpm
  | .getMaxRpm => .ok .getMaxRpm
  | .getThreshold t => .ok (.getThreshold t)
  | .setThreshold t v => (numArg v env).map (.setThreshold t)
  | .setRpm rpm => (numArg rpm env).map .setRpm
  | .getBst => .ok .getBst
  | .getBix => .ok .getBix
  | .setBtp v => (u32Arg v env).map .setBtp
  | .getCapabilities => .ok .getCapabilities
  | .getRealTime => .ok .getRealTime
  | .setRealTime timestamp => .ok (.setRealTime timestamp)
  | .getWakeStatus id => .ok (.getWakeStatus id)
  | .getExpiredTimerWakePolicy id => .ok (.getExpiredTimerWakePolicy id)
  | .getTimerValue id => .ok (.getTimerValue id)
  | .setTimerValue id v => (u32Arg v env).map (.setTimerValue id)
  | .setExpiredTimerWakePolicy id v => (u32Arg v env).map (.setExpiredTimerWakePolicy id)
  | .clearWakeStatus id => .ok (.clearWakeStatus id)

/-- Whether a source method returned Ok; the clock returns neither. -/
def returnedOk : (c : SourceCall α) → SourceAnswer c → Option Bool
  | .getTemperature, r | .getRpm, r | .getMinRpm, r | .getMaxRpm, r | .getThreshold _, r =>
    some r.isOk
  | .getBst, r => some r.isOk
  | .getBix, r => some r.isOk
  | .getCapabilities, r => some r.isOk
  | .getRealTime, r => some r.isOk
  | .getWakeStatus _, r => some r.isOk
  | .getExpiredTimerWakePolicy _, r | .getTimerValue _, r => some r.isOk
  | .setThreshold _ _, r | .setRpm _, r | .setBtp _, r | .setRealTime _, r | .setTimerValue _ _, r
  | .setExpiredTimerWakePolicy _ _, r | .clearWakeStatus _, r => some r.isOk
  | .sleep _, _ => none

def Returned (ok : Bool) : Event (SourceAnswer (α := α)) → Prop
  | ⟨c, some r⟩ => returnedOk c r = some ok
  | ⟨_, none⟩ => False

theorem exists_returned_iff {c : SourceCall α} {r : SourceAnswer c} {returned ok : Bool}
    (hr : returnedOk c r = some returned) :
    (∃ e ∈ ([⟨c, some r⟩] : ScriptTrace α), Returned ok e) ↔ returned = ok := by
  simp only [List.mem_singleton, exists_eq_left, Returned, hr, Option.some.injEq]

def leaves (names : List String) : Shape := .record (names.map fun name => (name, .leaf))

def Method.shape : Method α → Shape
  | .getBst =>
    leaves ["battery_state", "battery_present_rate", "battery_remaining_capacity",
      "battery_present_voltage"]
  | .getBix =>
    leaves ["revision", "design_capacity", "last_full_charge_capacity", "design_voltage",
      "design_cap_of_warning", "design_cap_of_low", "cycle_count", "measurement_accuracy",
      "max_sampling_time", "min_sampling_time", "max_averaging_interval",
      "min_averaging_interval", "battery_capacity_granularity_1",
      "battery_capacity_granularity_2"]
  | .getCapabilities =>
    leaves ["ac_wake_implemented", "dc_wake_implemented", "realtime_implemented",
      "realtime_accuracy_in_milliseconds", "get_wake_status_supported", "ac_s4_wake_supported",
      "ac_s5_wake_supported", "dc_s4_wake_supported", "dc_s5_wake_supported"]
  | .getWakeStatus _ => leaves ["timer_expired", "timer_triggered_wake"]
  | .getRealTime =>
    .record [("datetime", leaves ["unix_timestamp", "to_unix_time_seconds"]),
      ("unix_timestamp", .leaf)]
  | .getExpiredTimerWakePolicy _ | .getTimerValue _ => leaves ["0", "value"]
  | _ => .leaf

def answerValue {β : Type} (convert : β → Value α) : Except SourceError β → Except String (Value α)
  | .ok b => .ok (convert b)
  | .error e => .error e.text

def projectAnswer (call : Call α) : Except String (Value α) → Except String (Value α)
  | .error e => .error e
  | .ok v => v.project call.projection

structure CallOutcome (call : Call α) (ok : Bool) (r : Except String (Value α)) : Prop where
  failed : ok = false → ∃ e, r = .error e
  returned : ok = true → ((∃ v, r = .ok v) ↔ call.method.shape.hasPath call.projection = true)

theorem callOutcome_answerValue {β : Type} (call : Call α) (convert : β → Value α)
    (hshape : ∀ b, (convert b).shape = call.method.shape) (r : Except SourceError β) :
    CallOutcome call r.isOk (projectAnswer call (answerValue convert r)) := by
  cases r with
  | error e => exact ⟨fun _ => ⟨_, rfl⟩, nofun⟩
  | ok b =>
    refine ⟨nofun, fun _ => ?_⟩
    rw [← hshape b]
    exact project_isOk_iff call.projection (convert b)

theorem withArg_ok {β : Type} {x : Except String β} {n : β} (hn : x = .ok n)
    (k : β → Script α (Except String (Value α))) : withArg x k = k n := by
  rw [hn, withArg]

variable [HostNumber α]

theorem evalCall_answered {β : Type} {call : Call α} {env : Env α}
    {p : Script α (Except SourceError β)} {convert : β → Value α}
    (hinvoke : invoke call.method env = answered p convert) :
    evalCall call env = p >>= fun r => .done (projectAnswer call (answerValue convert r)) := by
  rw [evalCall, hinvoke, answered, bind_assoc]
  congr 1
  funext r
  cases r <;> rfl

def Asks (call : Call α) (env : Env α) (c : SourceCall α) : Prop :=
  ∃ f : SourceAnswer c → Except String (Value α), evalCall call env = .ask c (fun r => .done (f r)) ∧
    ∀ r, ∃ ok, returnedOk c r = some ok ∧ CallOutcome call ok (f r)

theorem asks_of_answered {β : Type} {call : Call α} {env : Env α} {c : SourceCall α}
    {convert : β → Value α} {answer : SourceAnswer c → Except SourceError β}
    (hinvoke : invoke call.method env =
      answered (askSource c >>= fun r => .done (answer r)) convert)
    (hok : ∀ r, returnedOk c r = some (answer r).isOk)
    (hshape : ∀ b, (convert b).shape = call.method.shape) : Asks call env c :=
  ⟨_, evalCall_answered hinvoke, fun r => ⟨_, hok r, callOutcome_answerValue call _ hshape (answer r)⟩⟩

theorem map_eq_ok {β γ : Type} {x : Except String β} {f : β → γ} {c : γ}
    (hc : x.map f = .ok c) : ∃ b, x = .ok b ∧ f b = c := by
  cases x with
  | error e => cases hc
  | ok b =>
    cases hc
    exact ⟨b, rfl, rfl⟩

theorem map_eq_error {β γ : Type} {x : Except String β} {f : β → γ} {e : String}
    (he : x.map f = .error e) : x = .error e := by
  cases x with
  | error e =>
    cases he
    rfl
  | ok b => cases he

/-- A call whose arguments resolve asks the source once, and its method. -/
theorem asks_of_sourceCall {call : Call α} {env : Env α} {c : SourceCall α}
    (hc : sourceCall call.method env = .ok c) : Asks call env c := by
  obtain ⟨target, m, projection⟩ := call
  cases m with
  | setThreshold t op | setRpm op | setBtp op | setTimerValue timer op
  | setExpiredTimerWakePolicy timer op =>
    obtain ⟨n, hn, rfl⟩ := map_eq_ok hc
    exact @asks_of_answered _ _ _ _ _ _ acknowledged id (withArg_ok hn _) (fun _ => rfl) fun _ => rfl
  | getTemperature | getRpm | getMinRpm | getMaxRpm | getThreshold t | getBst | getBix
  | getCapabilities | getRealTime | setRealTime t | getWakeStatus id
  | getExpiredTimerWakePolicy id | getTimerValue id | clearWakeStatus id =>
    cases hc
    exact asks_of_answered rfl (fun _ => rfl) (fun _ => rfl)

/-- A call whose argument does not resolve asks nothing. -/
theorem evalCall_of_unresolved {call : Call α} {env : Env α} {e : String}
    (he : sourceCall call.method env = .error e) : evalCall call env = .done (.error e) := by
  have hinvoke : invoke call.method env = .done (.error e) := by
    cases hm : call.method with
    | setThreshold t op | setRpm op | setBtp op | setTimerValue id op
    | setExpiredTimerWakePolicy id op =>
      rw [hm] at he
      rw [invoke, map_eq_error he, withArg]
      rfl
    | getTemperature | getRpm | getMinRpm | getMaxRpm | getThreshold t | getBst | getBix
    | getCapabilities | getRealTime | setRealTime t | getWakeStatus id
    | getExpiredTimerWakePolicy id | getTimerValue id | clearWakeStatus id =>
      rw [hm] at he
      cases he
  rw [evalCall, hinvoke]
  rfl

/-- The row passes exactly when the source method was invoked for it and returned so. -/
def Judges (src : SourceEnv α) (s : State α) (call : Call α) (verb : Verb α) (ok : Bool) : Prop :=
  ∀ line text s', Executes src s (.check line text call verb) s' →
    (s'.runner.rows = s.runner.rows ++ [⟨line, text, .pass, ""⟩] ↔
      ∃ τ, s'.history = s.history ++ τ ∧ ∃ e ∈ τ, Returned ok e)

/-- The setter's argument resolves, and an Ok of the source has what the accessors name. -/
def Judgeable (src : SourceEnv α) (s : State α) (call : Call α) : Prop :=
  ∃ c, sourceCall call.method s.env = .ok c ∧
    ∀ r, src s.history c = some r → returnedOk c r = some true →
      call.method.shape.hasPath call.projection = true

section Verdicts

variable {src : SourceEnv α} {s : State α} {call : Call α}

theorem records_pass_iff {runner : Runner} {line : ℕ} {text detail : String} {ok : Bool} :
    (runner.record line text (if ok then .pass else .fail) detail).rows =
      runner.rows ++ [⟨line, text, .pass, ""⟩] ↔ ok = true := by
  rw [record_rows, List.append_cancel_left_eq]
  cases ok with
  | true => exact iff_of_true rfl rfl
  | false => exact iff_of_false (fun h => by cases h) nofun

theorem isOk_verdict (r : Except String (Value α)) (env : Env α) :
    (applyVerb .isOk r env).1 = r.isOk := by
  cases r <;> rfl

theorem isErr_verdict (r : Except String (Value α)) (env : Env α) :
    (applyVerb .isErr r env).1 = !r.isOk := by
  cases r <;> rfl

/-- Where the call comes back, its outcome and its events decide. -/
theorem judges_iff {τ : ScriptTrace α} {r : Except String (Value α)}
    (hcall : Evaluates src s call (s.history ++ τ) r) (verb : Verb α) (ok : Bool) :
    Judges src s call verb ok ↔
      ((applyVerb verb r s.env).1 = true ↔ ∃ e ∈ τ, Returned ok e) := by
  have hevents : ∀ ok, (∃ τ', s.history ++ τ = s.history ++ τ' ∧ ∃ e ∈ τ', Returned ok e) ↔
      ∃ e ∈ τ, Returned (α := α) ok e := by
    intro ok
    constructor
    · rintro ⟨τ', hsame, he⟩
      cases List.append_cancel_left hsame
      exact he
    · exact fun he => ⟨τ, rfl, he⟩
  constructor
  · intro hjudges
    let verdict := applyVerb verb r s.env
    let runner' := s.runner.record 0 "" (if verdict.1 then .pass else .fail) verdict.2
    have hrow := hjudges 0 "" ⟨s.history ++ τ, s.env, runner'⟩
      ((executes_check 0 "" call verb).mpr ⟨r, hcall, rfl, rfl⟩)
    exact records_pass_iff.symm.trans (hrow.trans (hevents ok))
  · intro hiff line text s' hexec
    obtain ⟨r', hcall', henv, hrunner⟩ := (executes_check line text call verb).mp hexec
    obtain ⟨hhistory, rfl⟩ := hcall.unique hcall'
    rw [hrunner, records_pass_iff, ← hhistory, hevents]
    exact hiff

theorem evaluates_of_unresolved {e : String} (he : sourceCall call.method s.env = .error e) :
    Evaluates src s call (s.history ++ []) (.error e) := by
  rw [Evaluates, evalCall_of_unresolved he, List.append_nil]
  rfl

/-- Both verbs judge the call itself in exactly the rows whose argument resolves and whose accessors
fit, should the source return Ok. -/
theorem result_verbs_judge_call_iff (src : SourceEnv α) (s : State α) (call : Call α) :
    (Judges src s call .isOk true ∧ Judges src s call .isErr false) ↔ Judgeable src s call := by
  cases hcall : sourceCall call.method s.env with
  | error e =>
    have hrun : Evaluates src s call (s.history ++ []) (.error e) := evaluates_of_unresolved hcall
    rw [judges_iff hrun, judges_iff hrun]
    apply iff_of_false
    · rintro ⟨-, herr⟩
      obtain ⟨e, he, -⟩ := herr.mp rfl
      cases he
    · rintro ⟨c, hc, -⟩
      rw [hcall] at hc
      cases hc
  | ok c =>
    obtain ⟨f, heval, hf⟩ := asks_of_sourceCall hcall
    cases hanswer : src s.history c with
    | none =>
      -- the source never comes back, and there is no row
      have hnone : ∀ verb ok, Judges src s call verb ok := by
        intro verb ok line text s' hexec
        obtain ⟨r, hrun, -⟩ := (executes_check line text call verb).mp hexec
        rw [Evaluates, heval, Program.run_ask_none _ _ _ hanswer] at hrun
        cases congrArg Prod.snd hrun
      refine iff_of_true ⟨hnone _ _, hnone _ _⟩ ⟨c, hcall, fun r hr => ?_⟩
      rw [hanswer] at hr
      cases hr
    | some r =>
      have hrun : Evaluates src s call (s.history ++ [⟨c, some r⟩]) (f r) := by
        rw [Evaluates, heval, Program.run_ask_some _ _ _ hanswer]
        rfl
      obtain ⟨returned, hreturned, houtcome⟩ := hf r
      rw [judges_iff hrun, judges_iff hrun, exists_returned_iff hreturned,
        exists_returned_iff hreturned, isOk_verdict, isErr_verdict]
      have hjudgeable : Judgeable src s call ↔
          (returned = true → call.method.shape.hasPath call.projection = true) := by
        constructor
        · rintro ⟨c', hc', hpath⟩ htrue
          cases hcall.symm.trans hc'
          exact hpath r hanswer (hreturned.trans (congrArg some htrue))
        · intro hpath
          refine ⟨c, hcall, fun r' hr' hok => hpath ?_⟩
          cases hanswer.symm.trans hr'
          exact Option.some.inj (hreturned.symm.trans hok)
      rw [hjudgeable]
      cases returned with
      | false =>
        obtain ⟨e, he⟩ := houtcome.failed rfl
        rw [he]
        exact iff_of_true ⟨iff_of_false nofun nofun, iff_of_true rfl rfl⟩ nofun
      | true =>
        rw [← houtcome.returned rfl]
        cases f r with
        | ok v => exact iff_of_true ⟨iff_of_true rfl rfl, iff_of_false nofun nofun⟩ fun _ => ⟨v, rfl⟩
        | error e =>
          apply iff_of_false
          · rintro ⟨hok, -⟩
            cases hok.mpr rfl
          · intro hv
            obtain ⟨v, hv⟩ := hv rfl
            cases hv

end Verdicts

def spinningFan : SourceEnv Float
  | _, .getRpm => some (.ok 1500)
  | _, _ => none

/-- `thermal.get_rpm.foo` -/
def readRpmFoo : Call Float := ⟨.thermal, .getRpm, ["foo"]⟩

def setRpmUnbound : Call Float := ⟨.thermal, .setRpm (.var "x"), []⟩

theorem is_err_passes_without_error :
    ¬Judges spinningFan {} readRpmFoo .isErr false ∧
      ¬Judges spinningFan {} readRpmFoo .isOk true ∧
      ¬Judges spinningFan {} setRpmUnbound .isErr false := by
  have hfoo : Evaluates spinningFan {} readRpmFoo ([] ++ [⟨.getRpm, some (.ok 1500)⟩])
      (.error "cannot project `.foo` on number") := rfl
  have hunbound : Evaluates spinningFan {} setRpmUnbound ([] ++ [])
      (.error (undefinedVariable "x")) := rfl
  rw [judges_iff hfoo, judges_iff hfoo, judges_iff hunbound]
  refine ⟨fun herr => ?_, fun hok => ?_, fun herr => ?_⟩
  · obtain ⟨e, he, hreturned⟩ := herr.mp rfl
    cases List.mem_singleton.mp he
    cases hreturned
  · cases hok.mpr ⟨_, List.mem_singleton_self _, rfl⟩
  · obtain ⟨e, he, -⟩ := herr.mp rfl
    cases he

end EcScript
