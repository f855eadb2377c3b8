import OdpPlatform.EcScriptSuite

/-! # commands/script.rs: running the scripts of a directory

The files are run in order, each from no bindings, up to the first that cannot be read or does not
parse; the command succeeds where all of them ran and no row failed. -/
namespace EcScript

open CharText EcScriptParser InteractionProgram NamedTrees

def AllPass (totals : Totals) : Prop :=
  ∀ x ∈ totals.printed, ∀ row ∈ x.2, row.outcome = .pass

def failures (rows : List Row) : ℕ := rows.countP fun row => row.outcome = .fail

def Totals.failures (totals : Totals) : ℕ := EcScript.failures (totals.printed.flatMap Prod.snd)

/-- The counts are those of the rows that were printed, modulo 2^32. -/
structure Accounted (totals : Totals) : Prop where
  passed : totals.totalPassed =
    UInt32.ofNat ((totals.printed.flatMap Prod.snd).countP fun row => row.outcome = .pass)
  failed : totals.totalFailed = UInt32.ofNat totals.failures
  failedFiles : totals.failedFiles =
    (totals.printed.filter fun x => UInt32.ofNat (failures x.2) ≠ 0).map Prod.fst

theorem failures_eq_zero_iff (totals : Totals) : totals.failures = 0 ↔ AllPass totals := by
  rw [Totals.failures, failures, List.countP_eq_zero]
  constructor
  · intro hnone x hx row hrow
    have hne := hnone row (List.mem_flatMap.mpr ⟨x, hx, hrow⟩)
    cases houtcome : row.outcome with
    | pass => rfl
    | fail => simp [houtcome] at hne
  · intro hpass row hrow
    obtain ⟨x, hx, hmem⟩ := List.mem_flatMap.mp hrow
    simp [hpass x hx row hmem]

theorem ofNat_eq_zero_iff (n : ℕ) : UInt32.ofNat n = 0 ↔ 2 ^ 32 ∣ n := by
  rw [← UInt32.toNat_inj, UInt32.toNat_ofNat']
  exact (Nat.dvd_iff_mod_eq_zero).symm

theorem accounted_start : Accounted {} := ⟨rfl, rfl, rfl⟩

theorem conclude_ok_iff {r r' : Except String Unit} {totals totals' : Totals}
    (hacc : Accounted totals) (h : conclude (r, totals) = (r', totals')) :
    totals' = totals ∧ (r' = .ok () ↔ r = .ok () ∧ 2 ^ 32 ∣ totals.failures) := by
  cases r with
  | error e =>
    cases h
    exact ⟨rfl, iff_of_false (by simp) (by simp)⟩
  | ok _ =>
    rw [← ofNat_eq_zero_iff, ← hacc.failed]
    by_cases hfailed : totals.totalFailed > 0
    · rw [conclude, if_pos hfailed] at h
      cases h
      refine ⟨rfl, iff_of_false (by simp) fun hnone => ?_⟩
      rw [hnone.2] at hfailed
      exact UInt32.lt_irrefl _ hfailed
    · rw [conclude, if_neg hfailed] at h
      cases h
      exact ⟨rfl, iff_of_true rfl ⟨rfl, UInt32.le_zero_iff.mp (UInt32.not_lt.mp hfailed)⟩⟩

section Runs

variable {α : Type} [HostDecimal α] [ScriptHost]

structure FileRun (α : Type) [HostDecimal α] [ScriptHost] (fs : FileTree) (file : Path)
    (τ : ScriptTrace α) (summary : Summary) (rows : List Row) : Prop where
  ran : ∃ script stmts env', readToString fs file = .ok script ∧
    (parse script : Except ParseError (List (Stmt α))) = .ok stmts ∧
    ScriptRun (fun _ => none) stmts τ rows env'
  passed : summary.passed = UInt32.ofNat (rows.countP fun row => row.outcome = .pass)
  failed : summary.failed = UInt32.ofNat (failures rows)

inductive Unusable (α : Type) [HostDecimal α] [ScriptHost] (fs : FileTree) (file : Path) :
    String → Prop where
  | unread {e : String} : readToString fs file = .error e →
      Unusable α fs file ("failed to read " ++ display file ++ ": " ++ e)
  | unparsed {script : Text} {e : ParseError} : readToString fs file = .ok script →
      (parse script : Except ParseError (List (Stmt α))) = .error e →
      Unusable α fs file (display file ++ ": " ++ ParseError.display e)

/-- The files one after the other, up to the first that is unusable or waits for ever. -/
inductive SuiteRun (fs : FileTree) : List Path → Totals → ScriptTrace α →
    Option (Except String Unit × Totals) → Prop where
  | finished (totals : Totals) : SuiteRun fs [] totals [] (some (.ok (), totals))
  | stopped {file : Path} {rest : List Path} {e : String} (totals : Totals) :
      Unusable α fs file e → SuiteRun fs (file :: rest) totals [] (some (.error e, totals))
  | waits {file : Path} {rest : List Path} {script : Text} {before after : List (Stmt α)}
      {stmt : Stmt α} {τ : ScriptTrace α} {rows : List Row} {env : Env α} {c : SourceCall α}
      (totals : Totals) : readToString fs file = .ok script →
      (parse script : Except ParseError (List (Stmt α))) = .ok (before ++ stmt :: after) →
      ScriptRun (fun _ => none) before τ rows env → Requests env stmt c →
      SuiteRun fs (file :: rest) totals (τ ++ [⟨c, none⟩]) none
  | next {file : Path} {rest : List Path} {totals : Totals} {σ τ : ScriptTrace α}
      {summary : Summary} {rows : List Row} {x : Option (Except String Unit × Totals)} :
      FileRun α fs file σ summary rows → SuiteRun fs rest (totals.add file summary rows) τ x →
      SuiteRun fs (file :: rest) totals (σ ++ τ) x

/-- One script, after any history. -/
theorem run_runScript (script : Text) (src : SourceEnv α) (h : ScriptTrace α) :
    (∃ e, (parse script : Except ParseError (List (Stmt α))) = .error e ∧
      (runScript script).run src h = (h, some (.error e))) ∨
    ∃ stmts, (parse script : Except ParseError (List (Stmt α))) = .ok stmts ∧
      ((∃ τ rows env' runner, (runScript script).run src h =
          (h ++ τ, some (.ok (runner.intoSummary, rows))) ∧
          ScriptRun (fun _ => none) stmts τ rows env' ∧ Tallied runner ∧ runner.rows = rows) ∨
        ∃ before stmt after τ rows env' c, stmts = before ++ stmt :: after ∧
          ScriptRun (fun _ => none) before τ rows env' ∧ Requests env' stmt c ∧
          (runScript script).run src h = (h ++ (τ ++ [⟨c, none⟩]), none)) := by
  cases hparse : (parse script : Except ParseError (List (Stmt α))) with
  | error e =>
    refine .inl ⟨e, rfl, ?_⟩
    rw [runScript, hparse]
    rfl
  | ok stmts =>
    refine .inr ⟨stmts, rfl, ?_⟩
    rw [runScript, hparse]
    dsimp only
    rcases run_executeAll src stmts (fun _ => none) tallied_start h with
      ⟨τ, rows, env', runner, hrun, hscript, hrows, htallied⟩ |
      ⟨before, stmt, after, τ, rows, env', c, hsplit, hscript, hrequest, hrun⟩
    · rw [runStatements, Program.run_bind_some _ _ hrun]
      rw [List.nil_append] at hrows
      exact .inl ⟨τ, rows, env', runner, by rw [hrows]; rfl, hscript, htallied, hrows⟩
    · rw [runStatements, Program.run_bind_none _ _ hrun]
      exact .inr ⟨before, stmt, after, τ, rows, env', c, hsplit, hscript, hrequest,
        by rw [List.append_assoc]⟩

theorem run_runFiles (fs : FileTree) (src : SourceEnv α) (files : List Path) :
    ∀ (totals : Totals) (h : ScriptTrace α), ∃ τ x,
      (runFiles fs files totals).run src h = (h ++ τ, x) ∧ SuiteRun fs files totals τ x := by
  induction files with
  | nil => exact fun totals h => ⟨[], _, by rw [List.append_nil]; rfl, .finished totals⟩
  | cons file rest ih =>
    intro totals h
    rw [runFiles]
    cases hread : readToString fs file with
    | error e =>
      exact ⟨[], _, by rw [List.append_nil]; rfl, .stopped totals (.unread hread)⟩
    | ok script =>
      dsimp only
      rcases run_runScript script src h with ⟨e, hparse, hrun⟩ |
        ⟨stmts, hparse, ⟨τ, rows, env', runner, hrun, hscript, htallied, rfl⟩ |
          ⟨before, stmt, after, τ, rows, env', c, rfl, hscript, hrequest, hrun⟩⟩
      · rw [Program.run_bind_some _ _ hrun]
        exact ⟨[], _, by rw [List.append_nil]; rfl, .stopped totals (.unparsed hread hparse)⟩
      · rw [Program.run_bind_some _ _ hrun]
        have hfile : FileRun α fs file τ runner.intoSummary runner.rows :=
          ⟨⟨script, stmts, env', hread, hparse, hscript⟩, htallied.passed, htallied.failed⟩
        obtain ⟨σ, x, hrest, hsuite⟩ := ih (totals.add file runner.intoSummary runner.rows) (h ++ τ)
        refine ⟨τ ++ σ, x, ?_, .next hfile hsuite⟩
        rw [← List.append_assoc]
        exact hrest
      · rw [Program.run_bind_none _ _ hrun]
        exact ⟨_, none, rfl, .waits totals hread hparse hscript hrequest⟩

theorem Accounted.add {fs : FileTree} {totals : Totals} {file : Path} {τ : ScriptTrace α}
    {summary : Summary} {rows : List Row} (h : Accounted totals)
    (hfile : FileRun α fs file τ summary rows) : Accounted (totals.add file summary rows) := by
  have hrows : (totals.printed ++ [(file, rows)]).flatMap Prod.snd =
      totals.printed.flatMap Prod.snd ++ rows := by
    rw [List.flatMap_append, List.flatMap_singleton]
  refine ⟨?_, ?_, ?_⟩
  · change totals.totalPassed + summary.passed = _
    rw [Totals.add, hrows, List.countP_append, UInt32.ofNat_add, h.passed, hfile.passed]
  · change totals.totalFailed + summary.failed = _
    rw [Totals.failures, Totals.add, hrows, failures, List.countP_append, UInt32.ofNat_add,
      h.failed, hfile.failed]
    rfl
  · change (if summary.failed = 0 then totals.failedFiles else totals.failedFiles ++ [file]) = _
    rw [Totals.add, List.filter_append, List.map_append, ← h.failedFiles, List.filter_singleton,
      hfile.failed]
    by_cases hnone : UInt32.ofNat (failures rows) = 0
    · rw [if_pos hnone, decide_eq_false (not_not.mpr hnone)]
      exact (List.append_nil _).symm
    · rw [if_neg hnone, decide_eq_true hnone]
      rfl

/-- The files that were run are the first ones, and all of them unless the run stopped. -/
theorem SuiteRun.printed {fs : FileTree} {files : List Path} {totals totals' : Totals}
    {τ : ScriptTrace α} {x : Option (Except String Unit × Totals)} {r : Except String Unit}
    (h : SuiteRun fs files totals τ x) (hx : x = some (r, totals')) (hacc : Accounted totals) :
    Accounted totals' ∧ ∃ ran left, files = ran ++ left ∧
      totals'.printed.map Prod.fst = totals.printed.map Prod.fst ++ ran ∧
      (r = .ok () ↔ left = []) := by
  induction h with
  | finished totals =>
    cases hx
    exact ⟨hacc, [], [], rfl, (List.append_nil _).symm, iff_of_true rfl rfl⟩
  | @stopped file rest e totals hunusable =>
    cases hx
    exact ⟨hacc, [], file :: rest, rfl, (List.append_nil _).symm, iff_of_false (by simp) (by simp)⟩
  | waits => cases hx
  | @next file rest totals σ τ summary rows x hfile _ ih =>
    obtain ⟨hacc', ran, left, rfl, hprinted, hok⟩ := ih hx (hacc.add hfile)
    refine ⟨hacc', file :: ran, left, rfl, ?_, hok⟩
    rw [hprinted, Totals.add, List.map_append, List.append_assoc]
    rfl

theorem run_runPath {fs : FileTree} {path : Path} {files : List Path} (src : SourceEnv α)
    (hfiles : testFiles fs path = .ok files) : ∃ τ x,
      (runPath fs path).run src [] = (τ, x.map conclude) ∧ SuiteRun fs files {} τ x := by
  obtain ⟨τ, x, hrun, hsuite⟩ := run_runFiles fs src files {} []
  refine ⟨τ, x, ?_, hsuite⟩
  rw [List.nil_append] at hrun
  rw [runPath, hfiles]
  dsimp only
  cases x with
  | none => rw [Program.run_bind_none _ _ hrun]; rfl
  | some result => rw [Program.run_bind_some _ _ hrun]; rfl

/-- All files ran, and the number of failures is 0 in u32. -/
theorem runPath_verdict {fs : FileTree} {path : Path} {src : SourceEnv α} {τ : ScriptTrace α}
    {r : Except String Unit} {totals : Totals}
    (hrun : (runPath fs path).run src [] = (τ, some (r, totals))) :
    Accounted totals ∧ (r = .ok () ↔
      testFiles fs path = .ok (totals.printed.map Prod.fst) ∧ 2 ^ 32 ∣ totals.failures) := by
  cases hfiles : testFiles fs path with
  | error e =>
    rw [runPath, hfiles] at hrun
    cases hrun
    exact ⟨accounted_start, iff_of_false (by simp) (by simp)⟩
  | ok files =>
    obtain ⟨τ', x, hpath, hsuite⟩ := run_runPath src hfiles
    obtain ⟨-, hx⟩ := Prod.mk.inj (hpath.symm.trans hrun)
    obtain ⟨⟨r', totals'⟩, rfl, hconclude⟩ := Option.map_eq_some_iff.mp hx
    obtain ⟨hacc, ran, left, rfl, hprinted, hok⟩ := hsuite.printed rfl accounted_start
    obtain ⟨rfl, hverdict⟩ := conclude_ok_iff hacc hconclude
    refine ⟨hacc, ?_⟩
    rw [hverdict, hok, hprinted]
    refine and_congr_left fun _ => ?_
    rw [List.map_nil, List.nil_append, Except.ok.injEq]
    constructor
    · rintro rfl
      exact List.append_nil ran
    · exact fun h => List.self_eq_append_right.mp h.symm

end Runs

/-- What `script run` does with a path. -/
structure Suite (α : Type) [HostDecimal α] [ScriptHost] (fs : FileTree) (path : Path) : Prop where
  selected : ∀ files, testFiles fs path = .ok files → Selected fs path files
  untestable : (∃ e, testFiles fs path = .error e) ↔ Untestable fs path
  refused : ∀ (src : SourceEnv α) (e : String), testFiles fs path = .error e →
    (runPath fs path).run src [] = ([], some (.error e, {}))
  run : ∀ (src : SourceEnv α) (files : List Path), testFiles fs path = .ok files → ∃ τ x,
    (runPath fs path).run src [] = (τ, x.map conclude) ∧ SuiteRun fs files {} τ x
  verdict : ∀ (src : SourceEnv α) (τ : ScriptTrace α) (r : Except String Unit) (totals : Totals),
    (runPath fs path).run src [] = (τ, some (r, totals)) → Accounted totals ∧
      (r = .ok () ↔
        testFiles fs path = .ok (totals.printed.map Prod.fst) ∧ 2 ^ 32 ∣ totals.failures)
  /-- Below 2^32 failures, success says that no row failed. -/
  passes : ∀ (src : SourceEnv α) (τ : ScriptTrace α) (r : Except String Unit) (totals : Totals),
    (runPath fs path).run src [] = (τ, some (r, totals)) → totals.failures < 2 ^ 32 →
      (r = .ok () ↔ testFiles fs path = .ok (totals.printed.map Prod.fst) ∧ AllPass totals)

theorem runPath_suite (α : Type) [HostDecimal α] [ScriptHost] (fs : FileTree) (path : Path) :
    Suite α fs path where
  selected files hfiles := by
    obtain ⟨files', hfiles', hselected, -⟩ | ⟨⟨e, he⟩, -⟩ := testFiles_selected fs path
    · cases hfiles.symm.trans hfiles'
      exact hselected
    · cases hfiles.symm.trans he
  untestable := by
    obtain ⟨files, hfiles, -, hnot⟩ | ⟨herror, huntestable⟩ := testFiles_selected fs path
    · refine iff_of_false ?_ hnot
      rintro ⟨e, he⟩
      cases hfiles.symm.trans he
    · exact iff_of_true herror huntestable
  refused src e he := by
    rw [runPath, he]
    rfl
  run src files hfiles := run_runPath src hfiles
  verdict _ _ _ _ hrun := runPath_verdict hrun
  passes _ _ _ _ hrun hfew := by
    rw [(runPath_verdict hrun).2, ← failures_eq_zero_iff, Nat.dvd_iff_mod_eq_zero,
      Nat.mod_eq_of_lt hfew]

end EcScript
