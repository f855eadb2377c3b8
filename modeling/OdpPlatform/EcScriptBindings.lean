import OdpPlatform.EcScriptMessages

/-! # test-script: what a failed let leaves behind

A name is unbound exactly while no let of it has succeeded, so a failed let keeps the value that an
earlier one bound. Which rows report an undefined variable follows from that. -/
namespace EcScript

open InteractionProgram InteractionContract

variable {α : Type}

structure State (α : Type) where
  history : ScriptTrace α := []
  env : Env α := fun _ => none
  runner : Runner := {}

inductive UndefinedRow (x : String) : Stmt α → Row → Prop where
  | ofLet (line : ℕ) (src name : String) (call : Call α) :
      UndefinedRow x (.letStmt line src name call)
        ⟨line, src, .fail, "let " ++ name ++ ": " ++ undefinedVariable x⟩
  | ofCall (line : ℕ) (src : String) (call : Call α) (verb : Verb α) :
      UndefinedRow x (.check line src call verb)
        ⟨line, src, .fail, callErrorDetail verb (undefinedVariable x)⟩
  | ofVerb (line : ℕ) (src : String) (call : Call α) (verb : Verb α) :
      UndefinedRow x (.check line src call verb) ⟨line, src, .fail, undefinedVariable x⟩

theorem record_rows (runner : Runner) (line : ℕ) (name : String) (outcome : Outcome)
    (detail : String) : (runner.record line name outcome detail).rows =
      runner.rows ++ [⟨line, name, outcome, if outcome = .fail then detail else ""⟩] := by
  cases outcome <;> rfl

theorem done_returns {src : SourceEnv α} {h h' : ScriptTrace α} {env env' : Env α}
    {runner runner' : Runner}
    (hrun : (.done (env, runner) : Script α (Env α × Runner)).run src h =
      (h', some (env', runner'))) : h = h' ∧ env' = env ∧ runner' = runner := by
  cases hrun
  exact ⟨rfl, rfl, rfl⟩

section Runs

variable [HostNumber α] (src : SourceEnv α)

def Executes (s : State α) (stmt : Stmt α) (s' : State α) : Prop :=
  (execute stmt s.env s.runner).run src s.history = (s'.history, some (s'.env, s'.runner))

def Evaluates (s : State α) (call : Call α) (h : ScriptTrace α)
    (r : Except String (Value α)) : Prop :=
  (evalCall call s.env).run src s.history = (h, some r)

def Succeeds (s : State α) (call : Call α) : Prop := ∃ h v, Evaluates src s call h (.ok v)

def Fails (s : State α) (call : Call α) : Prop := ∃ h e, Evaluates src s call h (.error e)

inductive Runs : State α → List (Stmt α) → State α → Prop where
  | nil (s : State α) : Runs s [] s
  | cons {s s₁ s' : State α} {stmt : Stmt α} {rest : List (Stmt α)}
      (head : Executes src s stmt s₁) (tail : Runs s₁ rest s') : Runs s (stmt :: rest) s'

def Rebinds (x : String) (s : State α) (stmt : Stmt α) : Prop :=
  ∃ line text call, stmt = .letStmt line text x call ∧ Succeeds src s call

inductive Unrebound (x : String) : State α → List (Stmt α) → State α → Prop where
  | nil (s : State α) : Unrebound x s [] s
  | cons {s s₁ s' : State α} {stmt : Stmt α} {rest : List (Stmt α)}
      (head : Executes src s stmt s₁) (kept : ¬Rebinds src x s stmt)
      (tail : Unrebound x s₁ rest s') : Unrebound x s (stmt :: rest) s'

/-- The statement looks `x` up, and its row depends on what it finds. -/
inductive Resolves (x : String) (s : State α) : Stmt α → Prop where
  | letArgument (line : ℕ) (text name : String) {call : Call α}
      (harg : call.method.operand = some (.var x)) : Resolves x s (.letStmt line text name call)
  | checkArgument (line : ℕ) (text : String) {call : Call α} {verb : Verb α}
      (harg : call.method.operand = some (.var x)) (hverb : verb ≠ .isErr) :
      Resolves x s (.check line text call verb)
  | verbOperand (line : ℕ) (text : String) {call : Call α} {verb : Verb α}
      (hverb : verb.operand = some (.var x)) (hcall : Succeeds src s call) :
      Resolves x s (.check line text call verb)

def FailsUndefined (x : String) (s : State α) (stmt : Stmt α) : Prop :=
  ∃ s' row, Executes src s stmt s' ∧ s'.runner.rows = s.runner.rows ++ [row] ∧
    UndefinedRow x stmt row

variable {src} {x : String} {s s' : State α}

theorem runs_iff_executeAll (stmts : List (Stmt α)) (s s' : State α) :
    Runs src s stmts s' ↔
      (executeAll stmts s.env s.runner).run src s.history =
        (s'.history, some (s'.env, s'.runner)) := by
  induction stmts generalizing s with
  | nil =>
    refine ⟨fun hruns => ?_, fun hrun => ?_⟩
    · cases hruns
      rfl
    · cases s
      cases s'
      cases hrun
      exact .nil _
  | cons stmt rest ih =>
    rw [executeAll]
    constructor
    · intro hruns
      cases hruns with
      | @cons _ s₁ _ _ _ head tail =>
        rw [Program.run_bind_some src s.history head]
        exact (ih s₁).mp tail
    · intro hrun
      obtain ⟨h₁, ⟨env₁, runner₁⟩, head, tail⟩ := Program.run_bind_returns src s.history hrun
      have hhead : Executes src s stmt ⟨h₁, env₁, runner₁⟩ := head
      exact .cons hhead ((ih _).mpr tail)

theorem runs_iff_runStatements (stmts : List (Stmt α)) (s : State α) :
    Runs src {} stmts s ↔
      (runStatements stmts).run src [] = (s.history, some (s.env, s.runner)) :=
  runs_iff_executeAll stmts {} s

theorem Evaluates.unique {call : Call α} {h h' : ScriptTrace α} {r r' : Except String (Value α)}
    (hr : Evaluates src s call h r) (hr' : Evaluates src s call h' r') : h = h' ∧ r = r' := by
  have heq := hr.symm.trans hr'
  simpa using heq

theorem Fails.not_succeeds {call : Call α} (hfail : Fails src s call) : ¬Succeeds src s call := by
  rintro ⟨h, v, hok⟩
  obtain ⟨h', e, herr⟩ := hfail
  cases (hok.unique herr).2

theorem executes_let (line : ℕ) (text name : String) (call : Call α) :
    Executes src s (.letStmt line text name call) s' ↔
      (∃ v, Evaluates src s call s'.history (.ok v) ∧
        s'.env = Function.update s.env name (some v) ∧
        s'.runner = s.runner.record line text .pass ("let " ++ name ++ " = " ++ v.display)) ∨
      (∃ e, Evaluates src s call s'.history (.error e) ∧ s'.env = s.env ∧
        s'.runner = s.runner.record line text .fail ("let " ++ name ++ ": " ++ e)) := by
  unfold Executes Evaluates
  rw [execute]
  constructor
  · intro hrun
    obtain ⟨h, r, hcall, hrest⟩ := Program.run_bind_returns src s.history hrun
    cases r with
    | ok v =>
      obtain ⟨rfl, henv, hrunner⟩ := done_returns hrest
      exact .inl ⟨v, hcall, henv, hrunner⟩
    | error e =>
      obtain ⟨rfl, henv, hrunner⟩ := done_returns hrest
      exact .inr ⟨e, hcall, henv, hrunner⟩
  · rintro (⟨v, hcall, henv, hrunner⟩ | ⟨e, hcall, henv, hrunner⟩)
    · rw [Program.run_bind_some src s.history hcall, henv, hrunner]
      rfl
    · rw [Program.run_bind_some src s.history hcall, henv, hrunner]
      rfl

theorem executes_check (line : ℕ) (text : String) (call : Call α) (verb : Verb α) :
    Executes src s (.check line text call verb) s' ↔
      ∃ r, Evaluates src s call s'.history r ∧ s'.env = s.env ∧
        s'.runner = s.runner.record line text (if (applyVerb verb r s.env).1 then .pass else .fail)
          (applyVerb verb r s.env).2 := by
  unfold Executes Evaluates
  rw [execute]
  constructor
  · intro hrun
    obtain ⟨h, r, hcall, hrest⟩ := Program.run_bind_returns src s.history hrun
    obtain ⟨rfl, henv, hrunner⟩ := done_returns hrest
    exact ⟨r, hcall, henv, hrunner⟩
  · rintro ⟨r, hcall, henv, hrunner⟩
    rw [Program.run_bind_some src s.history hcall, henv, hrunner]
    rfl

/-- A statement binds `x` where it is a let of `x` that succeeds, and else leaves it alone. -/
theorem executes_env {stmt : Stmt α} (hexec : Executes src s stmt s') (x : String) :
    Rebinds src x s stmt ∧ s'.env x ≠ none ∨ ¬Rebinds src x s stmt ∧ s'.env x = s.env x := by
  cases stmt with
  | check line text call verb =>
    obtain ⟨r, -, henv, -⟩ := (executes_check line text call verb).mp hexec
    refine .inr ⟨?_, by rw [henv]⟩
    rintro ⟨_, _, _, heq, -⟩
    cases heq
  | sleep line microseconds =>
    obtain ⟨_, -, hrest⟩ := Program.run_ask_returns src s.history hexec
    obtain ⟨-, henv, -⟩ := done_returns hrest
    refine .inr ⟨?_, by rw [henv]⟩
    rintro ⟨_, _, _, heq, -⟩
    cases heq
  | letStmt line text name call =>
    rcases (executes_let line text name call).mp hexec with
      ⟨v, hcall, henv, -⟩ | ⟨e, hcall, henv, -⟩
    · by_cases hname : x = name
      · subst hname
        exact .inl ⟨⟨line, text, call, rfl, _, v, hcall⟩, by simp [henv]⟩
      · refine .inr ⟨?_, by simp [henv, hname]⟩
        rintro ⟨_, _, _, heq, -⟩
        cases heq
        exact hname rfl
    · refine .inr ⟨?_, by rw [henv]⟩
      rintro ⟨_, _, _, heq, hsucc⟩
      cases heq
      exact Fails.not_succeeds ⟨_, e, hcall⟩ hsucc

theorem unrebound_env {stmts : List (Stmt α)} (hrun : Unrebound src x s stmts s') :
    s'.env x = s.env x := by
  induction hrun with
  | nil => rfl
  | cons head kept _ ih =>
    rcases executes_env head x with ⟨hrebind, -⟩ | ⟨-, hsame⟩
    · exact absurd hrebind kept
    · rw [ih, hsame]

theorem runs_bound {stmts : List (Stmt α)} (hrun : Runs src s stmts s') (hx : s.env x ≠ none) :
    s'.env x ≠ none := by
  induction hrun with
  | nil => exact hx
  | cons head _ ih =>
    apply ih
    rcases executes_env head x with ⟨-, hbound⟩ | ⟨-, hsame⟩
    · exact hbound
    · rwa [hsame]

/-- From an unbound name, a run leaves it unbound exactly when no let of it succeeds. -/
theorem runs_unbound_iff {stmts : List (Stmt α)} (hrun : Runs src s stmts s')
    (hx : s.env x = none) : s'.env x = none ↔ Unrebound src x s stmts s' := by
  refine ⟨fun hnone => ?_, fun hkept => (unrebound_env hkept).trans hx⟩
  induction hrun with
  | nil s => exact .nil s
  | cons head tail ih =>
    rcases executes_env head x with ⟨-, hbound⟩ | ⟨hkept, hsame⟩
    · exact absurd hnone (runs_bound tail hbound)
    · exact .cons head hkept (ih (hsame.trans hx) hnone)

theorem evaluates_blames {call : Call α} {h : ScriptTrace α}
    (he : Evaluates src s call h (.error (undefinedVariable x))) :
    call.method.operand = some (.var x) ∧ s.env x = none :=
  (evalCall_blames call s.env s.history).run_free he x rfl

theorem evaluates_undefined {call : Call α} (hcall : call.method.operand = some (.var x))
    (hx : s.env x = none) : Evaluates src s call s.history (.error (undefinedVariable x)) := by
  unfold Evaluates
  rw [evalCall_undefined hcall hx]
  rfl

theorem FailsUndefined.of_executes {stmt : Stmt α} {h : ScriptTrace α} {env : Env α} {line : ℕ}
    {text d : String} (hexec : Executes src s stmt ⟨h, env, s.runner.record line text .fail d⟩)
    (hrow : UndefinedRow x stmt ⟨line, text, .fail, d⟩) : FailsUndefined src x s stmt :=
  ⟨_, _, hexec, record_rows s.runner line text .fail d, hrow⟩

theorem failsUndefined_of_resolves {stmt : Stmt α} (hx : s.env x = none)
    (hres : Resolves src x s stmt) : FailsUndefined src x s stmt := by
  cases hres with
  | @letArgument line text name call harg =>
    apply FailsUndefined.of_executes _ (.ofLet line text name call)
    · exact s.history
    · exact s.env
    · exact (executes_let line text name call).mpr
        (.inr ⟨_, evaluates_undefined harg hx, rfl, rfl⟩)
  | @checkArgument line text call verb harg hverb =>
    apply FailsUndefined.of_executes _ (.ofCall line text call verb)
    · exact s.history
    · exact s.env
    · refine (executes_check line text call verb).mpr ⟨_, evaluates_undefined harg hx, rfl, ?_⟩
      rw [applyVerb_error hverb]
      rfl
  | @verbOperand line text call verb hverb hcall =>
    obtain ⟨h, v, hok⟩ := hcall
    have hisOk : verb ≠ .isOk := by rintro rfl; cases hverb
    have hisErr : verb ≠ .isErr := by rintro rfl; cases hverb
    apply FailsUndefined.of_executes _ (.ofVerb line text call verb)
    · exact h
    · exact s.env
    · refine (executes_check line text call verb).mpr ⟨_, hok, rfl, ?_⟩
      rw [applyVerb_ok hisOk hisErr, applyValueVerb_undefined hverb hx]
      rfl

theorem record_row_inj {runner : Runner} {line : ℕ} {name : String} {outcome : Outcome}
    {detail : String} {row : Row}
    (hrows : (runner.record line name outcome detail).rows = runner.rows ++ [row]) :
    row = ⟨line, name, outcome, if outcome = .fail then detail else ""⟩ := by
  rw [record_rows] at hrows
  exact (List.singleton_inj.mp (List.append_cancel_left hrows)).symm

theorem check_printed {line : ℕ} {text : String} {call : Call α} {verb : Verb α} {d : String}
    (hexec : Executes src s (.check line text call verb) s')
    (hrows : s'.runner.rows = s.runner.rows ++ [⟨line, text, .fail, d⟩]) :
    ∃ r, Evaluates src s call s'.history r ∧ applyVerb verb r s.env = (false, d) := by
  obtain ⟨r, hcall, -, hrunner⟩ := (executes_check line text call verb).mp hexec
  refine ⟨r, hcall, ?_⟩
  rw [hrunner] at hrows
  have hrow := record_row_inj hrows
  cases hverdict : applyVerb verb r s.env with
  | mk ok detail =>
    rw [hverdict] at hrow
    cases ok with
    | true => cases hrow
    | false =>
      cases hrow
      rfl

theorem resolves_of_failsUndefined {stmt : Stmt α} (hfail : FailsUndefined src x s stmt) :
    s.env x = none ∧ Resolves src x s stmt := by
  obtain ⟨s', row, hexec, hrows, hrow⟩ := hfail
  cases hrow with
  | ofLet line text name call =>
    rcases (executes_let line text name call).mp hexec with
      ⟨v, -, -, hrunner⟩ | ⟨e, hcall, -, hrunner⟩
    · rw [hrunner] at hrows
      cases record_row_inj hrows
    · rw [hrunner] at hrows
      have hdetail := congrArg Row.detail (record_row_inj hrows)
      have he : e = undefinedVariable x := ((String.append_right_inj _).mp hdetail).symm
      subst he
      obtain ⟨harg, hx⟩ := evaluates_blames hcall
      exact ⟨hx, .letArgument line text name harg⟩
  | ofCall line text call verb =>
    obtain ⟨r, hcall, hverdict⟩ := check_printed hexec hrows
    rcases applyVerb_false hverdict with ⟨e, rfl, hverb, hdetail⟩ | ⟨v, rfl, hdetail⟩
    · cases callErrorDetail_injective verb hdetail
      obtain ⟨harg, hx⟩ := evaluates_blames hcall
      exact ⟨hx, .checkArgument line text harg hverb⟩
    · exact absurd rfl (hdetail.ne_callErrorDetail verb _)
  | ofVerb line text call verb =>
    obtain ⟨r, hcall, hverdict⟩ := check_printed hexec hrows
    rcases applyVerb_false hverdict with ⟨e, rfl, -, hdetail⟩ | ⟨v, rfl, hdetail⟩
    · exact absurd hdetail.symm (callErrorDetail_ne_undefinedVariable verb e x)
    · obtain ⟨hop, hx⟩ := hdetail.blames
      exact ⟨hx, .verbOperand line text hop ⟨_, v, hcall⟩⟩

theorem failsUndefined_iff {stmt : Stmt α} :
    FailsUndefined src x s stmt ↔ s.env x = none ∧ Resolves src x s stmt :=
  ⟨resolves_of_failsUndefined, fun h => failsUndefined_of_resolves h.1 h.2⟩

/-- After a failed let, `x` is unbound exactly when no let of it had succeeded before, and only then
do the rows that resolve `x` report it. -/
theorem failed_let_unbinds_iff {pre mid : List (Stmt α)} {s₀ s₁ s₂ : State α} {line : ℕ}
    {text : String} {call : Call α} {row : Stmt α} (hpre : Runs src {} pre s₀)
    (hlet : Executes src s₀ (.letStmt line text x call) s₁) (hfail : Fails src s₀ call)
    (hmid : Unrebound src x s₁ mid s₂) :
    (s₂.env x = none ↔ Unrebound src x {} pre s₀) ∧
      (FailsUndefined src x s₂ row ↔ Unrebound src x {} pre s₀ ∧ Resolves src x s₂ row) := by
  have hsame : s₂.env x = s₀.env x := by
    rw [unrebound_env hmid]
    rcases executes_env hlet x with ⟨⟨_, _, _, heq, hsucc⟩, -⟩ | ⟨-, hsame⟩
    · cases heq
      exact absurd hsucc hfail.not_succeeds
    · exact hsame
  have hiff : s₂.env x = none ↔ Unrebound src x {} pre s₀ := by
    rw [hsame]
    exact runs_unbound_iff hpre rfl
  exact ⟨hiff, by rw [failsUndefined_iff, hiff]⟩

end Runs

def capabilities : TimeAlarmDeviceCapabilities where
  acWakeImplemented := true
  dcWakeImplemented := true
  realtimeImplemented := true
  realtimeAccuracyInMilliseconds := false
  getWakeStatusSupported := true
  acS4WakeSupported := false
  acS5WakeSupported := false
  dcS4WakeSupported := false
  dcS5WakeSupported := false

def timedOut : Except SourceError TimeAlarmDeviceCapabilities := .error ⟨"read timed out", .io⟩

def flakySource : SourceEnv Float
  | h, .getCapabilities => some (if h.length = 1 then timedOut else .ok capabilities)
  | _, _ => none

def readAcWake : Call Float := ⟨.rtc, .getCapabilities, ["ac_wake_implemented"]⟩

def letAcWake (line : ℕ) : Stmt Float :=
  .letStmt line "let x = rtc.get_capabilities.ac_wake_implemented" "x" readAcWake

def checkAcWake : Stmt Float :=
  .check 3 "rtc.get_capabilities.ac_wake_implemented => eq x" readAcWake (.eq (.var "x"))

def boundState : State Float where
  history := [⟨.getCapabilities, some (.ok capabilities)⟩]
  env := Function.update (fun _ => none) "x" (some (.bool true))
  runner := Runner.record {} 1 "let x = rtc.get_capabilities.ac_wake_implemented" .pass ""

def failedState : State Float where
  history := boundState.history ++ [⟨.getCapabilities, some timedOut⟩]
  env := boundState.env
  runner := boundState.runner.record 2 "let x = rtc.get_capabilities.ac_wake_implemented" .fail
    "let x: read timed out (Io)"

theorem boundState_runs : Runs flakySource {} [letAcWake 1] boundState :=
  (runs_iff_runStatements _ _).mpr rfl

theorem failedState_executes : Executes flakySource boundState (letAcWake 2) failedState := rfl

theorem boundState_fails : Fails flakySource boundState readAcWake := ⟨_, _, rfl⟩

theorem checkAcWake_resolves : Resolves flakySource "x" failedState checkAcWake :=
  .verbOperand _ _ rfl ⟨_, _, rfl⟩

theorem failed_let_unbinds_iff_flakySource :
    (failedState.env "x" = none ↔ Unrebound flakySource "x" {} [letAcWake 1] boundState) ∧
      (FailsUndefined flakySource "x" failedState checkAcWake ↔
        Unrebound flakySource "x" {} [letAcWake 1] boundState ∧
          Resolves flakySource "x" failedState checkAcWake) :=
  failed_let_unbinds_iff boundState_runs failedState_executes boundState_fails (.nil _)

/-- The third row passes: it compares with the value that the first let read. -/
theorem stale_value_compared :
    (∃ s, Executes flakySource failedState checkAcWake s ∧
      s.runner.rows.map Row.outcome = [.pass, .fail, .pass]) ∧
      ¬∀ (src : SourceEnv Float) (x : String) (pre mid : List (Stmt Float))
        (s₀ s₁ s₂ : State Float) (line : ℕ) (text : String) (call : Call Float)
        (row : Stmt Float), Runs src {} pre s₀ → Executes src s₀ (.letStmt line text x call) s₁ →
          Fails src s₀ call → Unrebound src x s₁ mid s₂ → Resolves src x s₂ row →
            FailsUndefined src x s₂ row := by
  refine ⟨⟨⟨_, _, _⟩, rfl, rfl⟩, fun hclaim => ?_⟩
  have hundefined := hclaim flakySource "x" _ _ _ _ _ _ _ _ _ boundState_runs failedState_executes
    boundState_fails (.nil _) checkAcWake_resolves
  cases (failsUndefined_iff.mp hundefined).1

end EcScript
