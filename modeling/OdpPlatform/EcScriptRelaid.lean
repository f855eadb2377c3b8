import OdpPlatform.EcScriptLayout

/-! # Relaid scripts

Every statement of a script is recorded at the line of its first token, and a script in another
layout holds the same statements exactly if its keywords are spaced. -/
namespace EcScriptRelaid

open CharText EcScript EcScriptParser EcScriptSqueeze EcScriptStatements EcScriptAssembly
open EcScriptLayout

/-- The characters outside whitespace and comments with their lines; the flag says whether a comment
is open. -/
def solidChars : ℕ → Bool → Text → Located
  | _, _, [] => []
  | line, comment, c :: t =>
    if c = '\n' then solidChars (line + 1) false t
    else if comment || c == '#' then solidChars line true t
    else if isWhitespace c then solidChars line false t
    else (c, line) :: solidChars line false t

/-- The lines of the first characters; the flag says whether a statement starts here. -/
def firstLines : Bool → Located → List ℕ
  | _, [] => []
  | fresh, x :: rest =>
    if isSemicolon x then firstLines true rest
    else if fresh then x.2 :: firstLines false rest
    else firstLines false rest

def firstTokenLines (src : Text) : List ℕ := firstLines true (solidChars 1 false src)

def solid (j : Located) : Located := j.filter fun x => !isBlank x

theorem solid_append (j k : Located) : solid (j ++ k) = solid j ++ solid k := List.filter_append ..

theorem solid_white {x : Char × ℕ} (hx : isWhitespace x.1 = true) (j : Located) :
    solid (x :: j) = solid j := List.filter_cons_of_neg (by rw [isBlank, hx]; decide)

theorem solid_cons {x : Char × ℕ} (hx : isWhitespace x.1 = false) (j : Located) :
    solid (x :: j) = x :: solid j := by
  rw [solid, List.filter_cons_of_pos (by rw [isBlank, hx]; rfl), solid]

theorem solid_blank (line : ℕ) {g : Text} (hg : Blank g) : solid (located line g) = [] := by
  induction g with
  | nil => rfl
  | cons c g ih =>
    obtain ⟨hc, htail⟩ := List.forall_mem_cons.mp hg
    exact (solid_white (x := (c, line)) hc _).trans (ih htail)

theorem solid_trim (line : ℕ) (t : Text) :
    solid (located line (trim t)) = solid (located line t) := by
  obtain ⟨g, h, hg, hh, ht⟩ := eq_trim t
  have hsplit : located line t = located line g ++ (located line (trim t) ++ located line h) := by
    rw [located, located, located, located, ← List.map_append, ← List.map_append, ← ht]
  rw [hsplit, solid_append, solid_append, solid_blank line hg, solid_blank line hh, List.nil_append,
    List.append_nil]

theorem solid_joined_cons (raw : Text × ℕ) (ls : List (Text × ℕ)) :
    solid (joined (raw :: ls)) =
      solid (located raw.2 (stripComment raw.1)) ++ solid (joined ls) := by
  rw [← solid_trim, joined]
  split
  next hnil =>
    rw [hnil]
    rfl
  · rw [solid_white isWhitespace_space, solid_append]

/-- A line in front of a text that closes a comment. -/
theorem solidChars_line {p : Text} (hp : ∀ c ∈ p, (c == '\n') = false) (line : ℕ) {r : Text}
    (hr : solidChars line true r = solidChars line false r) :
    solidChars line false (p ++ r) =
      solid (located line (stripComment p)) ++ solidChars line false r := by
  have hcomment : ∀ q : Text, (∀ c ∈ q, (c == '\n') = false) →
      solidChars line true (q ++ r) = solidChars line false r := by
    intro q hq
    induction q with
    | nil => exact hr
    | cons c q ih =>
      obtain ⟨hc, htail⟩ := List.forall_mem_cons.mp hq
      rw [List.cons_append, solidChars, if_neg (by simpa using hc), if_pos (by simp), ih htail]
  rw [stripComment_eq]
  induction p with
  | nil => rfl
  | cons c p ih =>
    obtain ⟨hc, htail⟩ := List.forall_mem_cons.mp hp
    rw [List.cons_append, solidChars, if_neg (by simpa using hc)]
    by_cases hhash : c = '#'
    · rw [if_pos (by simp [hhash]), hcomment p htail, hhash]
      rfl
    · rw [if_neg (by simp [hhash]), List.takeWhile_cons_of_pos (by simp [hhash]), ih htail]
      cases hwhite : isWhitespace c with
      | true => exact congrArg (· ++ _) (solid_white (x := (c, line)) hwhite _).symm
      | false => exact congrArg (· ++ _) (solid_cons (x := (c, line)) hwhite _).symm

theorem solid_joined (src : Text) (line : ℕ) :
    solid (joined ((lines src).zipIdx line)) = solidChars line false src := by
  induction src using pieces_induction (· == '\n') generalizing line with
  | last p hp =>
    have hline := solidChars_line hp line (r := []) rfl
    rw [List.append_nil] at hline
    rw [hline, lines_last hp]
    by_cases hnil : p = []
    · rw [if_pos hnil, hnil]
      rfl
    · rw [if_neg hnil, List.zipIdx_singleton, solid_joined_cons]
      rfl
  | more p c q hp hc ih =>
    have hnewline : c = '\n' := by simpa using hc
    rw [hnewline, solidChars_line hp line rfl, lines_append hp, List.zipIdx_cons,
      solid_joined_cons, ih (line + 1), ← solid_trim, trim_stripCarriageReturn, solid_trim]
    rfl

/-- A piece without a first character is no statement. -/
theorem statementAt_solid_eq (piece : Located) :
    (statementAt piece = none ∧ solid piece = []) ∨
      ∃ x rest t, statementAt piece = some (x.2, t) ∧ solid piece = x :: rest := by
  induction piece with
  | nil => exact .inl ⟨rfl, rfl⟩
  | cons x piece ih =>
    cases hx : isWhitespace x.1 with
    | true => rwa [statementAt_white hx, solid_white hx]
    | false =>
      rw [statementAt_solid hx, solid_cons hx]
      exact .inr ⟨x, solid piece, _, rfl, rfl⟩

/-- Nothing starts before the next semicolon. -/
theorem firstLines_semicolon (fresh : Bool) {j : Located} (hj : ∀ x ∈ j, isSemicolon x = false)
    {c : Char × ℕ} (hc : isSemicolon c = true) (k : Located) :
    firstLines fresh (j ++ c :: k) =
      (if fresh then (j.head?.map Prod.snd).toList else []) ++ firstLines true k := by
  have hopen : ∀ l : Located, (∀ x ∈ l, isSemicolon x = false) →
      firstLines false (l ++ c :: k) = firstLines true k := by
    intro l hl
    induction l with
    | nil => rw [List.nil_append, firstLines, if_pos hc]
    | cons x l ih =>
      obtain ⟨hx, htail⟩ := List.forall_mem_cons.mp hl
      rw [List.cons_append, firstLines, if_neg (by rw [hx]; decide), if_neg (by decide), ih htail]
  match fresh, j with
  | false, j => exact hopen j hj
  | true, [] => rw [List.nil_append, firstLines, if_pos hc]; rfl
  | true, x :: j =>
    obtain ⟨hx, htail⟩ := List.forall_mem_cons.mp hj
    rw [List.cons_append, firstLines, if_neg (by rw [hx]; decide), if_pos rfl, hopen j htail]
    rfl

theorem bind_eq_ok {ε β γ : Type} {x : Except ε β} {f : β → Except ε γ} {c : γ}
    (h : x >>= f = .ok c) : ∃ b, x = .ok b ∧ f b = .ok c := by
  cases x with
  | error e => cases h
  | ok b => exact ⟨b, rfl, h⟩

section

variable {α : Type} [HostDecimal α] [ScriptHost]

theorem stmtLine_parseLet {line : ℕ} {t rest : Text} {stmt : Stmt α}
    (h : parseLet line t rest = .ok stmt) : stmtLine stmt = line := by
  rw [parseLet] at h
  split at h
  · cases h
  · dsimp only at h
    split at h
    · obtain ⟨call, -, hstmt⟩ := bind_eq_ok h
      cases hstmt
      rfl
    · cases h

theorem stmtLine_parseCheck {line : ℕ} {t : Text} {stmt : Stmt α}
    (h : parseCheck line t = .ok stmt) : stmtLine stmt = line := by
  rw [parseCheck] at h
  split at h
  · cases h
  · obtain ⟨call, -, hrest⟩ := bind_eq_ok h
    obtain ⟨verb, -, hstmt⟩ := bind_eq_ok hrest
    cases hstmt
    rfl

theorem stmtLine_parseAt {line : ℕ} {t : Text} {stmt : Stmt α} (h : parseAt line t = .ok stmt) :
    stmtLine stmt = line := by
  have hstmt : parseStmt line t = .ok stmt := by
    rw [parseAt] at h
    split at h
    next hparse => rw [hparse, Except.ok.inj h]
    · cases h
  rw [parseStmt] at hstmt
  split at hstmt
  · obtain ⟨duration, -, hsleep⟩ := bind_eq_ok hstmt
    cases hsleep
    rfl
  · split at hstmt
    · exact stmtLine_parseLet hstmt
    · exact stmtLine_parseCheck hstmt

theorem stmtLine_parseLocated {j : Located} {stmts : List (Stmt α)}
    (h : parseLocated j = .ok stmts) : stmts.map stmtLine = firstLines true (solid j) := by
  induction j using pieces_induction isSemicolon generalizing stmts with
  | last p hp =>
    rw [parseLocated_last hp] at h
    rcases statementAt_solid_eq p with ⟨hpiece, hsolid⟩ | ⟨x, rest, t, hpiece, hsolid⟩
    · rw [hpiece] at h
      cases h
      rw [hsolid]
      rfl
    · rw [hpiece] at h
      cases h
  | more p c q hp hc ih =>
    rw [parseLocated_semicolon hp hc] at h
    have hwhite : isWhitespace c.1 = false := by
      have hsemi : c.1 = ';' := by simpa [isSemicolon] using hc
      rw [hsemi]
      decide
    have hfree : ∀ x ∈ solid p, isSemicolon x = false :=
      fun x hx => hp x (List.mem_of_mem_filter hx)
    rw [solid_append, solid_cons hwhite, firstLines_semicolon true hfree hc]
    rcases statementAt_solid_eq p with ⟨hpiece, hsolid⟩ | ⟨x, rest, t, hpiece, hsolid⟩
    · rw [hpiece] at h
      rw [hsolid, ih h]
      rfl
    · rw [hpiece] at h
      dsimp only at h
      cases hstmt : parseAt (α := α) x.2 t with
      | error e =>
        rw [hstmt] at h
        cases h
      | ok stmt =>
        cases hrest : parseLocated (α := α) q with
        | error e =>
          rw [hstmt, hrest] at h
          cases h
        | ok tail =>
          rw [hstmt, hrest] at h
          cases h
          rw [hsolid, List.map_cons, stmtLine_parseAt hstmt, ih hrest]
          rfl

/-- Every statement is recorded at the line of its first token. -/
theorem stmtLine_parse {src : Text} {stmts : List (Stmt α)} (h : parse src = .ok stmts) :
    stmts.map stmtLine = firstTokenLines src := by
  rw [parse_eq] at h
  rw [stmtLine_parseLocated h, oneLine, solid_joined, firstTokenLines]

variable (α) in
/-- Whitespace is put where it may stand, which is where it leaves the statements as they are; then
every run of whitespace becomes any other, with or without comments. -/
def Relaid (src src' : Text) : Prop :=
  ∃ pieces : List Text, pieces.flatten = src ∧
    (readScript ([' '].intercalate pieces) : Option (List (Stmt α))) = readScript src ∧
    SameTokens ([' '].intercalate pieces) src'

theorem readScript_eq_some {src : Text} {erased : List (Stmt α)} :
    readScript src = some erased ↔
      ∃ stmts, parse src = .ok stmts ∧ stmts.map eraseLayout = erased := by
  rw [readScript, Option.map_eq_some_iff]
  simp only [toOption_eq_some]

/-- A script in another layout holds the same statements exactly if its keywords are spaced; the
lines are those of the first tokens. -/
theorem same_statements_iff {src : Text} {stmts : List (Stmt α)} (hparse : parse src = .ok stmts) :
    (∀ src', Relaid α src src' →
      ((∃ stmts', parse src' = .ok stmts' ∧ stmts'.map eraseLayout = stmts.map eraseLayout) ↔
        KeywordsSpaced src')) ∧
    stmts.map stmtLine = firstTokenLines src := by
  refine ⟨?_, stmtLine_parse hparse⟩
  rintro src' ⟨pieces, -, hstand, htokens⟩
  have hread : readScript src = some (stmts.map eraseLayout) :=
    readScript_eq_some.mpr ⟨stmts, hparse, rfl⟩
  rw [← readScript_eq_some]
  constructor
  · exact spaced_of_readScript
  · intro hspaced
    -- both are read as the tokens that they share
    have hstart := spaced_of_readScript (hstand.trans hread)
    rw [readScript_of_spaced hspaced, ← htokens, ← readScript_of_spaced hstart, hstand, hread]

end

/-- ASCII letters only, and no timestamps. -/
instance asciiHost : ScriptHost where
  isAlphabetic c := decide (c.toNat < 128) && c.isAlpha
  isAlphabetic_ascii c hc := by simp [hc]
  isAlphabetic_white c hc := by
    by_contra halpha
    rw [Bool.not_eq_false, Bool.and_eq_true] at halpha
    rw [not_white_alpha halpha.2] at hc
    cases hc
  timestampFromBytes _ := .error "InvalidData"

def rpmScript : Text := "let x = thermal.get_rpm;".toList

def rpmStmt : Stmt Float := .letStmt 1 "let x = thermal.get_rpm" "x" ⟨.thermal, .getRpm, []⟩

def spreadScript : Text := "# fan\nlet x\t=\n\tthermal.get_rpm ;".toList

def tabbedScript : Text := "let\tx = thermal.get_rpm;".toList

theorem parse_rpmScript : parse rpmScript = .ok [rpmStmt] := by
  rw [parse_eq]
  rfl

/-- Whitespace may stand in front of the semicolon. -/
theorem readScript_spaced :
    (readScript "let x = thermal.get_rpm ;".toList : Option (List (Stmt Float))) =
      readScript rpmScript := by
  have hspaced : parse "let x = thermal.get_rpm ;".toList = .ok [rpmStmt] := by
    rw [parse_eq]
    rfl
  rw [readScript, readScript, hspaced, parse_rpmScript]

theorem relaid_spreadScript : Relaid Float rpmScript spreadScript := by
  refine ⟨["let x = thermal.get_rpm".toList, [';']], rfl, readScript_spaced, ?_⟩
  change _ = _
  decide

theorem same_statements_spreadScript :
    ((∃ stmts', parse spreadScript = .ok stmts' ∧
        stmts'.map eraseLayout = [rpmStmt].map eraseLayout) ↔ KeywordsSpaced spreadScript) ∧
      [rpmStmt].map stmtLine = firstTokenLines rpmScript :=
  ⟨(same_statements_iff parse_rpmScript).1 spreadScript relaid_spreadScript,
    (same_statements_iff parse_rpmScript).2⟩

theorem relaid_tabbedScript : Relaid Float rpmScript tabbedScript := by
  refine ⟨[rpmScript], List.append_nil _, rfl, ?_⟩
  exact sameTokens_of_gap (a := "let".toList) (g := [' ']) (h := ['\t']) (by decide) (by decide)
    (by decide) "x = thermal.get_rpm;".toList

theorem let_tab_not_read :
    parse rpmScript = .ok [rpmStmt] ∧ Relaid Float rpmScript tabbedScript ∧
      ¬∃ stmts', parse tabbedScript = .ok stmts' ∧
        stmts'.map eraseLayout = [rpmStmt].map eraseLayout := by
  refine ⟨parse_rpmScript, relaid_tabbedScript, ?_⟩
  rintro ⟨stmts', hparse, -⟩
  rw [parse_eq] at hparse
  cases hparse

end EcScriptRelaid
