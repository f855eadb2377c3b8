import OdpPlatform.EcScriptRelaid
import OdpPlatform.EcScriptVerdicts

/-! # test-script: the trace of a script

What the source is asked and what is printed, statement by statement. A script that does not parse
asks nothing. -/
namespace EcScript

open CharText EcScriptParser EcScriptAssembly InteractionProgram

variable {α : Type}

structure Summary where
  passed : UInt32
  failed : UInt32
  deriving DecidableEq, Repr

def Runner.intoSummary (runner : Runner) : Summary := ⟨runner.passed, runner.failed⟩

def runScript [HostDecimal α] [ScriptHost] (script : Text) :
    Script α (Except ParseError (Summary × List Row)) :=
  match (parse script : Except ParseError (List (Stmt α))) with
  | .error e => pure (.error e)
  | .ok stmts => do
    let (_, runner) ← runStatements stmts
    pure (.ok (runner.intoSummary, runner.rows))

/-- The line, the text and the call of a row; a sleep has none. -/
def Stmt.row : Stmt α → Option (ℕ × String × Call α)
  | .check line text call _ => some (line, text, call)
  | .letStmt line text _ call => some (line, text, call)
  | .sleep _ _ => none

def Stmt.binds : Stmt α → Option String
  | .letStmt _ _ name _ => some name
  | _ => none

section Relations

variable [HostNumber α]

/-- What a statement asks: its sleep, or its source method where the arguments resolve. -/
inductive Requests (env : Env α) : Stmt α → SourceCall α → Prop where
  | sleep (line microseconds : ℕ) :
      Requests env (.sleep line microseconds) (.sleep microseconds)
  | row {stmt : Stmt α} {line : ℕ} {text : String} {call : Call α} {c : SourceCall α} :
      stmt.row = some (line, text, call) → sourceCall call.method env = .ok c →
      Requests env stmt c

def CallEvents (env : Env α) (call : Call α) (τ : ScriptTrace α) : Prop :=
  match sourceCall call.method env with
  | .ok c => ∃ r, τ = [⟨c, some r⟩]
  | .error _ => τ = []

inductive StmtRun (env : Env α) : Stmt α → ScriptTrace α → List Row → Env α → Prop where
  | sleep (line microseconds : ℕ) :
      StmtRun env (.sleep line microseconds) [⟨.sleep microseconds, some ()⟩] [] env
  | row {stmt : Stmt α} {line : ℕ} {text detail : String} {outcome : Outcome} {call : Call α}
      {τ : ScriptTrace α} {env' : Env α} : stmt.row = some (line, text, call) →
      CallEvents env call τ → (∀ x, stmt.binds ≠ some x → env' x = env x) →
      StmtRun env stmt τ [⟨line, text, outcome, detail⟩] env'

inductive ScriptRun : Env α → List (Stmt α) → ScriptTrace α → List Row → Env α → Prop where
  | done (env : Env α) : ScriptRun env [] [] [] env
  | next {env env₁ env' : Env α} {stmt : Stmt α} {rest : List (Stmt α)} {σ τ : ScriptTrace α}
      {rows rows' : List Row} : StmtRun env stmt σ rows env₁ → ScriptRun env₁ rest τ rows' env' →
      ScriptRun env (stmt :: rest) (σ ++ τ) (rows ++ rows') env'

theorem StmtRun.length_rows {env env' : Env α} {stmt : Stmt α} {τ : ScriptTrace α}
    {rows : List Row} (hstmt : StmtRun env stmt τ rows env') :
    rows.length = ([stmt].filter fun stmt => stmt.row.isSome).length := by
  cases hstmt with
  | sleep => rfl
  | row hrow =>
    rw [List.filter_singleton, hrow]
    rfl

/-- A row for every let and check. -/
theorem ScriptRun.length_rows {env env' : Env α} {stmts : List (Stmt α)} {τ : ScriptTrace α}
    {rows : List Row} (hrun : ScriptRun env stmts τ rows env') :
    rows.length = (stmts.filter fun stmt => stmt.row.isSome).length := by
  induction hrun with
  | done => rfl
  | @next env env₁ env' stmt rest σ τ rows rows' hstmt _ ih =>
    rw [List.length_append, hstmt.length_rows, ih, ← List.length_append, ← List.filter_append]
    rfl

end Relations

/-- The counts are those of the rows, modulo 2^32. -/
structure Tallied (runner : Runner) : Prop where
  passed : runner.passed = UInt32.ofNat (runner.rows.countP fun row => row.outcome = .pass)
  failed : runner.failed = UInt32.ofNat (runner.rows.countP fun row => row.outcome = .fail)

theorem tallied_start : Tallied {} := ⟨rfl, rfl⟩

theorem Tallied.record {runner : Runner} (hr : Tallied runner) (line : ℕ) (name : String)
    (outcome : Outcome) (detail : String) : Tallied (runner.record line name outcome detail) := by
  constructor
  · rw [record_rows, List.countP_append, UInt32.ofNat_add, ← hr.passed]
    cases outcome
    · rfl
    · exact (UInt32.add_zero _).symm
  · rw [record_rows, List.countP_append, UInt32.ofNat_add, ← hr.failed]
    cases outcome
    · exact (UInt32.add_zero _).symm
    · rfl

theorem length_eq_countP (rows : List Row) :
    rows.length = (rows.countP fun row => row.outcome = .pass) +
      rows.countP fun row => row.outcome = .fail := by
  rw [List.length_eq_countP_add_countP fun row : Row => decide (row.outcome = .pass)]
  congr 1
  apply List.countP_congr
  intro row _
  cases row.outcome <;> simp

/-- Two counts add up in u32 as long as neither has wrapped. -/
theorem ofNat_add_toNat_iff (a b : ℕ) :
    (UInt32.ofNat a).toNat + (UInt32.ofNat b).toNat = a + b ↔ a < 2 ^ 32 ∧ b < 2 ^ 32 := by
  rw [UInt32.toNat_ofNat', UInt32.toNat_ofNat']
  omega

theorem Tallied.total_iff {runner : Runner} (hr : Tallied runner) :
    runner.passed.toNat + runner.failed.toNat = runner.rows.length ↔
      (runner.rows.countP fun row => row.outcome = .pass) < 2 ^ 32 ∧
        (runner.rows.countP fun row => row.outcome = .fail) < 2 ^ 32 := by
  rw [hr.passed, hr.failed, length_eq_countP, ofNat_add_toNat_iff]

section Runs

variable [HostNumber α]

/-- What a let statement leaves, by the result of its call. -/
def afterLet (env : Env α) (runner : Runner) (line : ℕ) (text name : String) :
    Except String (Value α) → Env α × Runner
  | .ok v =>
    (Function.update env name (some v),
      runner.record line text .pass ("let " ++ name ++ " = " ++ v.display))
  | .error e => (env, runner.record line text .fail ("let " ++ name ++ ": " ++ e))

/-- The rest of a row, behind the result of its call. -/
theorem execute_row {stmt : Stmt α} {line : ℕ} {text : String} {call : Call α}
    (hrow : stmt.row = some (line, text, call)) (env : Env α) (runner : Runner) :
    ∃ k : Except String (Value α) → Env α × Runner,
      execute stmt env runner = evalCall call env >>= (fun r => .done (k r)) ∧
      ∀ r, (∃ outcome detail, (k r).2 = runner.record line text outcome detail) ∧
        ∀ x, stmt.binds ≠ some x → (k r).1 x = env x := by
  cases stmt with
  | sleep => cases hrow
  | check line text call verb =>
    cases hrow
    exact ⟨_, rfl, fun r => ⟨⟨_, _, rfl⟩, fun _ _ => rfl⟩⟩
  | letStmt line text name call =>
    cases hrow
    refine ⟨afterLet env runner line text name, ?_, fun r => ?_⟩
    · rw [execute]
      congr 1
      funext r
      cases r <;> rfl
    · cases r with
      | ok v =>
        refine ⟨⟨.pass, "let " ++ name ++ " = " ++ v.display, rfl⟩, fun x hx => ?_⟩
        apply Function.update_of_ne
        rintro rfl
        exact hx rfl
      | error e => exact ⟨⟨.fail, "let " ++ name ++ ": " ++ e, rfl⟩, fun _ _ => rfl⟩

/-- A statement is over, or waits for an answer that never comes. -/
theorem run_execute (src : SourceEnv α) (stmt : Stmt α) (env : Env α) {runner : Runner}
    (hr : Tallied runner) (h : ScriptTrace α) :
    (∃ τ rows env' runner', (execute stmt env runner).run src h = (h ++ τ, some (env', runner')) ∧
      StmtRun env stmt τ rows env' ∧ runner'.rows = runner.rows ++ rows ∧ Tallied runner') ∨
    ∃ c, Requests env stmt c ∧ (execute stmt env runner).run src h = (h ++ [⟨c, none⟩], none) := by
  cases hrow : stmt.row with
  | none =>
    cases stmt with
    | sleep line microseconds =>
      rw [execute, askSource, Program.call_bind]
      cases hanswer : src h (.sleep microseconds) with
      | none =>
        rw [Program.run_ask_none _ _ _ hanswer]
        exact .inr ⟨_, .sleep line microseconds, rfl⟩
      | some r =>
        rw [Program.run_ask_some _ _ _ hanswer]
        exact .inl ⟨_, [], env, runner, rfl, .sleep line microseconds, (List.append_nil _).symm, hr⟩
    | check => cases hrow
    | letStmt => cases hrow
  | some row =>
    obtain ⟨line, text, call⟩ := row
    obtain ⟨k, hexecute, hk⟩ := execute_row hrow env runner
    -- the row that follows a call with result `r`
    have hdone : ∀ (τ : ScriptTrace α) (r : Except String (Value α)), CallEvents env call τ →
        ∃ rows env' runner', k r = (env', runner') ∧ StmtRun env stmt τ rows env' ∧
          runner'.rows = runner.rows ++ rows ∧ Tallied runner' := by
      intro τ r hτ
      obtain ⟨⟨outcome, detail, hrecord⟩, hbinds⟩ := hk r
      refine ⟨[⟨line, text, outcome, if outcome = .fail then detail else ""⟩], (k r).1, (k r).2, rfl,
        .row hrow hτ hbinds, ?_, ?_⟩
      · rw [hrecord, record_rows]
      · rw [hrecord]
        exact hr.record line text outcome detail
    rw [hexecute]
    cases hcall : sourceCall call.method env with
    | error e =>
      obtain ⟨rows, env', runner', hkr, hstmt, hrows, htallied⟩ :=
        hdone [] (.error e) (by rw [CallEvents, hcall])
      rw [evalCall_of_unresolved hcall, Program.done_bind, Program.run_done, hkr]
      exact .inl ⟨[], rows, env', runner', by rw [List.append_nil], hstmt, hrows, htallied⟩
    | ok c =>
      obtain ⟨f, heval, -⟩ := asks_of_sourceCall hcall
      rw [heval, Program.ask_bind]
      cases hanswer : src h c with
      | none =>
        rw [Program.run_ask_none _ _ _ hanswer]
        exact .inr ⟨c, .row hrow hcall, rfl⟩
      | some r =>
        obtain ⟨rows, env', runner', hkr, hstmt, hrows, htallied⟩ :=
          hdone [⟨c, some r⟩] (f r) (by rw [CallEvents, hcall]; exact ⟨r, rfl⟩)
        rw [Program.run_ask_some _ _ _ hanswer, Program.done_bind, Program.run_done, hkr]
        exact .inl ⟨_, rows, env', runner', rfl, hstmt, hrows, htallied⟩

/-- The loop runs to its end, or stops at a request that never comes back. -/
theorem run_executeAll (src : SourceEnv α) (stmts : List (Stmt α)) : ∀ (env : Env α)
    {runner : Runner}, Tallied runner → ∀ h : ScriptTrace α,
    (∃ τ rows env' runner',
      (executeAll stmts env runner).run src h = (h ++ τ, some (env', runner')) ∧
        ScriptRun env stmts τ rows env' ∧ runner'.rows = runner.rows ++ rows ∧ Tallied runner') ∨
    ∃ before stmt after τ rows env' c, stmts = before ++ stmt :: after ∧
      ScriptRun env before τ rows env' ∧ Requests env' stmt c ∧
        (executeAll stmts env runner).run src h = (h ++ τ ++ [⟨c, none⟩], none) := by
  induction stmts with
  | nil =>
    intro env runner hr h
    exact .inl ⟨[], [], env, runner, by rw [List.append_nil]; rfl, .done env,
      (List.append_nil _).symm, hr⟩
  | cons stmt rest ih =>
    intro env runner hr h
    rw [executeAll]
    rcases run_execute src stmt env hr h with
      ⟨σ, rows, env₁, runner₁, hrun, hstmt, hrows, htallied⟩ | ⟨c, hrequest, hrun⟩
    · rw [Program.run_bind_some _ _ hrun]
      rcases ih env₁ htallied (h ++ σ) with
        ⟨τ, rows', env', runner', hrest, hscript, hrows', htallied'⟩ |
        ⟨before, stuck, after, τ, rows', env', c, rfl, hscript, hrequest, hrest⟩
      · refine .inl ⟨σ ++ τ, rows ++ rows', env', runner', ?_, .next hstmt hscript, ?_, htallied'⟩
        · rw [← List.append_assoc]
          exact hrest
        · rw [hrows', hrows, List.append_assoc]
      · refine .inr ⟨stmt :: before, stuck, after, σ ++ τ, rows ++ rows', env', c, rfl,
          .next hstmt hscript, hrequest, ?_⟩
        rw [← List.append_assoc]
        exact hrest
    · rw [Program.run_bind_none _ _ hrun]
      exact .inr ⟨[], stmt, rest, [], [], env, c, rfl, .done env, hrequest, by
        rw [List.append_nil]⟩

end Runs

theorem read_of_forall₂ [HostDecimal α] [ScriptHost] {texts : List (ℕ × Text)}
    {stmts : List (Stmt α)} (h : List.Forall₂ Reads texts stmts) :
    ∀ text ∈ texts, ∃ stmt : Stmt α, Reads text stmt := by
  induction h with
  | nil => exact fun _ h => (by cases h)
  | cons hstmt _ ih => exact List.forall_mem_cons.mpr ⟨⟨_, hstmt⟩, ih⟩

theorem unread_of_firstError [HostDecimal α] [ScriptHost] {texts : List (ℕ × Text)}
    {left : Option (ℕ × Text)} {e : ParseError} (h : FirstError α texts left e) :
    (∃ text ∈ texts, ∀ stmt : Stmt α, ¬Reads text stmt) ∨ left ≠ none := by
  cases h with
  | @unread before after line t m htexts _ hm =>
    refine .inl ⟨(line, t), by rw [htexts]; simp, fun stmt hstmt => ?_⟩
    cases hm.symm.trans hstmt
  | unterminated _ hleft => exact .inr (by rw [hleft]; exact Option.some_ne_none _)

/-- A script with a statement that is not read asks nothing and prints nothing, and so does one that
ends within a statement. Any other runs statement by statement to its end, or to a request that
never comes back. -/
theorem run_script_trace [HostDecimal α] [ScriptHost] (script : Text) (src : SourceEnv α) :
    ((∃ text ∈ statements script, ∀ stmt : Stmt α, ¬Reads text stmt) ∨ remainder script ≠ none →
      ∃ e, FirstError α (statements script) (remainder script) e ∧
        (runScript script).run src [] = ([], some (.error e))) ∧
    ((∀ text ∈ statements script, ∃ stmt : Stmt α, Reads text stmt) ∧ remainder script = none →
      ∃ stmts : List (Stmt α), List.Forall₂ Reads (statements script) stmts ∧
        ((∃ τ rows env' summary,
          (runScript script).run src [] = (τ, some (.ok (summary, rows))) ∧
            ScriptRun (fun _ => none) stmts τ rows env' ∧
            summary.passed = UInt32.ofNat (rows.countP fun row => row.outcome = .pass) ∧
            summary.failed = UInt32.ofNat (rows.countP fun row => row.outcome = .fail) ∧
            (summary.passed.toNat + summary.failed.toNat =
                (stmts.filter fun stmt => stmt.row.isSome).length ↔
              (rows.countP fun row => row.outcome = .pass) < 2 ^ 32 ∧
                (rows.countP fun row => row.outcome = .fail) < 2 ^ 32)) ∨
        ∃ before stmt after τ rows env' c, stmts = before ++ stmt :: after ∧
          ScriptRun (fun _ => none) before τ rows env' ∧ Requests env' stmt c ∧
            (runScript script).run src [] = (τ ++ [⟨c, none⟩], none))) := by
  rcases parse_cases (α := α) script with ⟨stmts, hparse, hleft, hstmts⟩ | ⟨e, hparse, he⟩
  · refine ⟨fun hunread => ?_, fun _ => ⟨stmts, hstmts, ?_⟩⟩
    · rcases hunread with ⟨text, htext, hnone⟩ | hunterminated
      · obtain ⟨stmt, hstmt⟩ := read_of_forall₂ hstmts text htext
        exact absurd hstmt (hnone stmt)
      · exact absurd hleft hunterminated
    rw [runScript, hparse]
    dsimp only
    rcases run_executeAll src stmts (fun _ => none) tallied_start [] with
      ⟨τ, rows, env', runner, hrun, hscript, hrows, htallied⟩ |
      ⟨before, stmt, after, τ, rows, env', c, hsplit, hscript, hrequest, hrun⟩
    · rw [runStatements, Program.run_bind_some _ _ hrun]
      rw [List.nil_append] at hrows
      subst hrows
      refine .inl ⟨τ, runner.rows, env', runner.intoSummary, rfl, hscript, htallied.passed,
        htallied.failed, ?_⟩
      rw [← hscript.length_rows]
      exact htallied.total_iff
    · rw [runStatements, Program.run_bind_none _ _ hrun]
      exact .inr ⟨before, stmt, after, τ, rows, env', c, hsplit, hscript, hrequest, rfl⟩
  · refine ⟨fun _ => ⟨e, he, by rw [runScript, hparse]; rfl⟩, fun hread => ?_⟩
    rcases unread_of_firstError he with ⟨text, htext, hnone⟩ | hunterminated
    · obtain ⟨stmt, hstmt⟩ := hread.1 text htext
      exact absurd hstmt (hnone stmt)
    · exact absurd hread.2 hunterminated

open EcScriptLayout EcScriptRelaid

/-- `n` times `let x = thermal.get_rpm;` on one line. -/
def rpmScripts (n : ℕ) : Text := (List.replicate n rpmScript).flatten

theorem rpmScripts_succ (n : ℕ) : rpmScripts (n + 1) = rpmScript ++ rpmScripts n := by
  rw [rpmScripts, List.replicate_succ, List.flatten_cons]
  rfl

theorem rpmScripts_concat (n : ℕ) : rpmScripts (n + 1) = rpmScripts n ++ rpmScript := by
  rw [rpmScripts, List.replicate_succ', List.flatten_concat]
  rfl

theorem plain_rpmScripts {n : ℕ} {c : Char} (hc : c ∈ rpmScripts n) :
    (c == '\n') = false ∧ (c != '#') = true := by
  obtain ⟨t, ht, hc⟩ := List.mem_flatten.mp hc
  rw [List.eq_of_mem_replicate ht] at hc
  have hplain : (rpmScript.all fun c => !(c == '\n') && c != '#') = true := rfl
  simpa using List.all_eq_true.mp hplain c hc

theorem oneLine_rpmScripts (n : ℕ) :
    oneLine (rpmScripts (n + 1)) = (' ', 1) :: located 1 (rpmScripts (n + 1)) := by
  have hne : rpmScripts (n + 1) ≠ [] := by
    rw [rpmScripts_succ]
    exact List.cons_ne_nil _ _
  have hcomment : stripComment (rpmScripts (n + 1)) = rpmScripts (n + 1) := by
    rw [stripComment_eq, List.takeWhile_eq_self_iff]
    exact fun c hc => (plain_rpmScripts hc).2
  have htrim : trim (rpmScripts (n + 1)) = rpmScripts (n + 1) := by
    have hend : rpmScripts (n + 1) =
        (rpmScripts n ++ "let x = thermal.get_rpm".toList) ++ [';'] := by
      rw [rpmScripts_concat, List.append_assoc]
      rfl
    have hstart : trimStart (rpmScripts n ++ "let x = thermal.get_rpm".toList) =
        rpmScripts n ++ "let x = thermal.get_rpm".toList := by
      cases n with
      | zero => rfl
      | succ n =>
        rw [rpmScripts_succ]
        exact trimStart_solid (by decide) _
    rw [hend, trim_concat_solid _ (by decide), hstart]
  rw [oneLine, lines_last fun c hc => (plain_rpmScripts hc).1, if_neg hne, List.zipIdx_singleton,
    joined, hcomment, htrim, if_neg hne, joined, List.append_nil]

theorem parseLocated_rpmScripts (n : ℕ) :
    parseLocated (located 1 (rpmScripts n)) = .ok (List.replicate n rpmStmt) := by
  induction n with
  | zero => rfl
  | succ n ih =>
    have hsplit : located 1 (rpmScripts (n + 1)) =
        located 1 "let x = thermal.get_rpm".toList ++ (';', 1) :: located 1 (rpmScripts n) := by
      rw [rpmScripts_succ, located, List.map_append]
      rfl
    rw [hsplit, parseLocated_semicolon (by decide) rfl, ih]
    rfl

theorem parse_rpmScripts (n : ℕ) : parse (rpmScripts n) = .ok (List.replicate n rpmStmt) := by
  cases n with
  | zero => rfl
  | succ n =>
    rw [parse_eq, oneLine_rpmScripts, parseLocated_white (by decide), parseLocated_rpmScripts]

def stalledFan : SourceEnv Float
  | _, .getRpm => some (.error ⟨"read timed out", .io⟩)
  | _, _ => none

theorem run_rpmStmts (n : ℕ) (env : Env Float) : ∀ (runner : Runner) (h : ScriptTrace Float),
    ∃ τ runner', (executeAll (List.replicate n rpmStmt) env runner).run stalledFan h =
        (τ, some (env, runner')) ∧ runner'.passed = runner.passed ∧
      runner'.failed = runner.failed + UInt32.ofNat n := by
  induction n with
  | zero => exact fun runner h => ⟨h, runner, rfl, rfl, (UInt32.add_zero _).symm⟩
  | succ n ih =>
    intro runner h
    have hfirst : (execute rpmStmt env runner).run stalledFan h =
        (h ++ [⟨.getRpm, some (.error ⟨"read timed out", .io⟩)⟩],
          some (env, runner.record 1 "let x = thermal.get_rpm" .fail
            "let x: read timed out (Io)")) := rfl
    rw [List.replicate_succ, executeAll, Program.run_bind_some _ _ hfirst]
    obtain ⟨τ, runner', hrun, hpassed, hfailed⟩ := ih (runner.record 1 "let x = thermal.get_rpm"
      .fail "let x: read timed out (Io)") (h ++ [⟨.getRpm, some (.error ⟨"read timed out", .io⟩)⟩])
    refine ⟨τ, runner', hrun, hpassed, ?_⟩
    rw [hfailed, Nat.add_comm, UInt32.ofNat_add, ← UInt32.add_assoc]
    rfl

/-- The failures of 2^32 statements are counted as none. -/
theorem run_script_counts_wrap :
    ∃ (stmts : List (Stmt Float)) (τ : ScriptTrace Float) (summary : Summary) (rows : List Row),
      parse (rpmScripts (2 ^ 32)) = .ok stmts ∧
      (runScript (rpmScripts (2 ^ 32))).run stalledFan [] = (τ, some (.ok (summary, rows))) ∧
      summary.passed.toNat + summary.failed.toNat ≠
        (stmts.filter fun stmt => stmt.row.isSome).length := by
  have hall : ∀ n, (List.replicate n rpmStmt).filter (fun stmt => stmt.row.isSome) =
      List.replicate n rpmStmt := fun n => List.filter_eq_self.mpr fun stmt hstmt => by
    rw [List.eq_of_mem_replicate hstmt]
    rfl
  obtain ⟨τ, runner, hrun, hpassed, hfailed⟩ := run_rpmStmts (2 ^ 32) (fun _ => none) {} []
  refine ⟨_, τ, runner.intoSummary, runner.rows, parse_rpmScripts _, ?_, ?_⟩
  · rw [runScript, parse_rpmScripts]
    dsimp only
    rw [runStatements, Program.run_bind_some _ _ hrun]
    rfl
  · rw [hall, List.length_replicate, Runner.intoSummary, hpassed, hfailed]
    decide

end EcScript
