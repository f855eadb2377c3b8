import OdpPlatform.EcScriptStatements

/-! # Statement assembly

The line loop of the parser, against one pass over the script written on one line, every character
with the number of the physical line that it comes from. -/
namespace EcScriptAssembly

open CharText EcScript EcScriptParser

abbrev Located := List (Char × ℕ)

def located (line : ℕ) (t : Text) : Located := t.map fun c => (c, line)

@[simp] theorem map_fst_located (line : ℕ) (t : Text) : (located line t).map Prod.fst = t := by
  rw [located, List.map_map]
  exact List.map_id t

theorem line_of_located {line : ℕ} {t : Text} {x : Char × ℕ} (hx : x ∈ located line t) :
    x.2 = line := by
  obtain ⟨c, -, rfl⟩ := List.mem_map.mp hx
  rfl

/-- Comments and blank lines dropped, the others trimmed, a space in front of each. -/
def joined : List (Text × ℕ) → Located
  | [] => []
  | raw :: rest =>
    let line := trim (stripComment raw.1)
    if line = [] then joined rest else (' ', raw.2) :: (located raw.2 line ++ joined rest)

def isBlank (x : Char × ℕ) : Bool := isWhitespace x.1

def isSemicolon (x : Char × ℕ) : Bool := x.1 == ';'

def statementAt (piece : Located) : Option (ℕ × Text) :=
  match piece.dropWhile isBlank with
  | [] => none
  | x :: _ => some (x.2, trim (piece.map Prod.fst))

theorem statementAt_white {x : Char × ℕ} (hx : isWhitespace x.1 = true) (piece : Located) :
    statementAt (x :: piece) = statementAt piece := by
  rw [statementAt, statementAt, List.dropWhile_cons_of_pos (p := isBlank) hx, List.map_cons,
    trim_white hx]

theorem statementAt_solid {x : Char × ℕ} (hx : isWhitespace x.1 = false) (piece : Located) :
    statementAt (x :: piece) = some (x.2, trim (x.1 :: piece.map Prod.fst)) := by
  rw [statementAt, List.dropWhile_cons_of_neg (p := isBlank) (by rw [isBlank, hx]; decide)]
  rfl

theorem trim_solid_ne_nil {c : Char} (hc : isWhitespace c = false) (t : Text) :
    trim (c :: t) ≠ [] := by
  rw [trim, trimStart_solid hc, trimEnd_solid hc]
  exact List.cons_ne_nil _ _

theorem not_semicolon_of_text {b : Located} (hb : ';' ∉ b.map Prod.fst) :
    ∀ x ∈ b, isSemicolon x = false := by
  intro x hx
  rw [isSemicolon, beq_eq_false_iff_ne]
  rintro heq
  exact hb (heq ▸ List.mem_map_of_mem hx)

theorem not_white_head_trim {t u : Text} {c : Char} (h : trim t = c :: u) :
    isWhitespace c = false := by
  have hprefix : trim t <+: trimStart t := List.rdropWhile_prefix isWhitespace _
  rw [h] at hprefix
  obtain ⟨v, hv⟩ := hprefix
  have hdrop : t.dropWhile isWhitespace = c :: (u ++ v) := hv.symm
  have hhead := List.head?_dropWhile_not isWhitespace t
  rw [hdrop] at hhead
  exact hhead

section

variable {α : Type} [HostDecimal α] [ScriptHost]

def parsePieces : Located → List Located → Except ParseError (List (Stmt α))
  | last, [] =>
    match statementAt last with
    | none => .ok []
    | some (line, t) => .error ⟨line, unterminated t⟩
  | piece, next :: rest =>
    match statementAt piece with
    | none => parsePieces next rest
    | some (line, t) => do
      let stmt ← parseAt line t
      let stmts ← parsePieces next rest
      pure (stmt :: stmts)

def parseLocated (j : Located) : Except ParseError (List (Stmt α)) :=
  parsePieces (splitPieces isSemicolon j).1 (splitPieces isSemicolon j).2

theorem parsePieces_white {x : Char × ℕ} (hx : isWhitespace x.1 = true) (piece : Located)
    (rest : List Located) :
    (parsePieces (x :: piece) rest : Except ParseError (List (Stmt α))) =
      parsePieces piece rest := by
  cases rest with
  | nil => rw [parsePieces, parsePieces, statementAt_white hx]
  | cons next rest => rw [parsePieces, parsePieces, statementAt_white hx]

theorem parseLocated_white {x : Char × ℕ} (hx : isWhitespace x.1 = true) (j : Located) :
    (parseLocated (x :: j) : Except ParseError (List (Stmt α))) = parseLocated j := by
  have hsemi : isSemicolon x = false := by
    rw [isSemicolon, beq_eq_false_iff_ne]
    rintro heq
    rw [heq] at hx
    cases hx
  rw [parseLocated, splitPieces, hsemi]
  exact parsePieces_white hx _ _

theorem parseLocated_dropWhile (q k : Located) :
    (parseLocated (q.dropWhile isBlank ++ k) :
      Except ParseError (List (Stmt α))) = parseLocated (q ++ k) := by
  induction q with
  | nil => rfl
  | cons x q ih =>
    cases hx : isWhitespace x.1 with
    | true =>
      rw [List.dropWhile_cons_of_pos (p := isBlank) hx, ih, List.cons_append,
        parseLocated_white hx]
    | false => rw [List.dropWhile_cons_of_neg (p := isBlank) (by rw [isBlank, hx]; decide)]

theorem parseLocated_semicolon {p : Located} (hp : ∀ x ∈ p, isSemicolon x = false) {c : Char × ℕ}
    (hc : isSemicolon c = true) (q : Located) :
    (parseLocated (p ++ c :: q) : Except ParseError (List (Stmt α))) =
      match statementAt p with
      | none => parseLocated q
      | some (line, t) => (do
        let stmt ← parseAt line t
        let stmts ← parseLocated q
        pure (stmt :: stmts)) := by
  rw [parseLocated, splitPieces_append hp hc]
  rfl

theorem parseLocated_last {p : Located} (hp : ∀ x ∈ p, isSemicolon x = false) :
    (parseLocated p : Except ParseError (List (Stmt α))) =
      match statementAt p with
      | none => .ok []
      | some (line, t) => .error ⟨line, unterminated t⟩ := by
  rw [parseLocated, splitPieces_none hp]
  rfl

end

/-- A semicolon behind text without one stands on the next line, as does all behind it. -/
theorem line_behind_semicolon {b u p q : Located} {c : Char × ℕ} {line : ℕ}
    (hb : ∀ x ∈ b, isSemicolon x = false) (hu : ∀ x ∈ u, x.2 = line) (hsplit : b ++ u = p ++ c :: q)
    (hc : isSemicolon c = true) : ∀ x ∈ q, x.2 = line := by
  intro x hx
  apply hu
  rcases List.append_eq_append_iff.mp hsplit with ⟨d, rfl, htail⟩ | ⟨d, rfl, htail⟩
  · rw [htail]
    exact List.mem_append_right d (List.mem_cons_of_mem c hx)
  · match d with
    | [] =>
      rw [← List.nil_append u, ← htail]
      exact List.mem_cons_of_mem c hx
    | y :: d =>
      have hy : y = c := (List.cons_eq_cons.mp htail).1.symm
      have hnot := hb y (List.mem_append_right p List.mem_cons_self)
      rw [hy, hc] at hnot
      cases hnot

section

variable {α : Type}

/-- The buffer with the lines of its characters: it starts with its first token. -/
structure Pending (st : Assembly α) (b : Located) : Prop where
  text : b.map Prod.fst = st.buf
  started : ∀ x ∈ b.head?, isWhitespace x.1 = false ∧ x.2 = st.startLine

/-- What stands before the first semicolon. -/
theorem Pending.statementAt_eq {st : Assembly α} {b p q : Located} (hb : Pending st b)
    (hsplit : b = p ++ q) :
    statementAt p = if trim (p.map Prod.fst) = [] then none
      else some (st.startLine, trim (p.map Prod.fst)) := by
  match p with
  | [] => rfl
  | x :: p =>
    obtain ⟨hsolid, hline⟩ := hb.started x (by rw [hsplit]; rfl)
    rw [statementAt_solid hsolid, hline, List.map_cons, if_neg (trim_solid_ne_nil hsolid _)]

theorem Pending.dropWhile {out : List (Stmt α)} {q : Located} {line : ℕ}
    (hq : ∀ x ∈ q, x.2 = line) :
    Pending ⟨out, trimStart (q.map Prod.fst), line⟩ (q.dropWhile isBlank) where
  text := by
    rw [trimStart, List.dropWhile_map]
    rfl
  started x hx := by
    have hmem : x ∈ q.dropWhile isBlank := List.mem_of_mem_head? hx
    refine ⟨?_, hq x ((List.dropWhile_sublist _).mem hmem)⟩
    have hhead := List.head?_dropWhile_not isBlank q
    rw [Option.mem_def.mp hx] at hhead
    simpa [isBlank] using hhead

/-- A line that starts a statement. -/
theorem Pending.line {out : List (Stmt α)} {t : Text} {lineno : ℕ} :
    Pending ⟨out, trim t, lineno⟩ (located lineno (trim t)) where
  text := map_fst_located lineno _
  started x hx := by
    match ht : trim t with
    | [] =>
      rw [ht] at hx
      cases hx
    | c :: u =>
      rw [ht] at hx
      cases hx
      exact ⟨not_white_head_trim ht, rfl⟩

/-- A line that goes on with a statement. -/
theorem Pending.append {st : Assembly α} {b : Located} (hb : Pending st b) (hne : st.buf ≠ [])
    (t : Text) (lineno : ℕ) :
    Pending ⟨st.out, st.buf ++ ' ' :: t, st.startLine⟩
      (b ++ (' ', lineno) :: located lineno t) where
  text := by rw [List.map_append, hb.text, List.map_cons, map_fst_located]
  started x hx := by
    match b with
    | [] => exact absurd hb.text.symm hne
    | y :: b => exact hb.started x hx

end

section

variable {α : Type} [HostDecimal α] [ScriptHost]

/-- The line loop and what follows it. -/
def finish (ls : List (Text × ℕ)) (st : Assembly α) : Except ParseError (List (Stmt α)) := do
  let st ← ls.foldlM addLine st
  if trim st.buf ≠ [] then throw ⟨st.startLine, unterminated (trim st.buf)⟩ else pure st.out

/-- The semicolon loop takes the statements that the one pass takes. -/
theorem finish_takeStatements {ls : List (Text × ℕ)}
    (hfinish : ∀ (st : Assembly α) b, Pending st b → (∀ x ∈ b, isSemicolon x = false) →
      finish ls st = (st.out ++ ·) <$> parseLocated (b ++ joined ls))
    (lineno : ℕ) (st : Assembly α) (b : Located) (hb : Pending st b)
    (hlater : ∀ p c q, b = p ++ c :: q → isSemicolon c = true → ∀ x ∈ q, x.2 = lineno) :
    (takeStatements lineno st >>= finish ls) =
      (st.out ++ ·) <$> parseLocated (b ++ joined ls) := by
  induction hn : st.buf.length using Nat.strong_induction_on generalizing st b with
  | _ n ih =>
    rw [takeStatements]
    split
    next hsplit =>
      have hsemi := (not_mem_of_splitOnce (t := st.buf)).1 hsplit
      rw [← hb.text] at hsemi
      exact hfinish st b hb (not_semicolon_of_text hsemi)
    next stmtSrc rest hsplit =>
      obtain ⟨hsemi, happend⟩ := (not_mem_of_splitOnce (t := st.buf)).2 stmtSrc rest hsplit
      have htext := hb.text
      rw [happend, List.map_eq_append_iff] at htext
      obtain ⟨p, q', rfl, rfl, hq'⟩ := htext
      rw [List.map_eq_cons_iff] at hq'
      obtain ⟨c, q, rfl, hc, rfl⟩ := hq'
      have hsemicolon : isSemicolon c = true := by rw [isSemicolon, hc]; rfl
      have hline := hlater p c q rfl hsemicolon
      have hlength : (trimStart (q.map Prod.fst)).length < n := by
        have hdrop : (trimStart (q.map Prod.fst)).length ≤ (q.map Prod.fst).length :=
          List.length_dropWhile_le _ _
        rw [← hn, happend, List.length_append, List.length_cons]
        omega
      have hrest : ∀ out, (takeStatements lineno
          (⟨out, trimStart (q.map Prod.fst), lineno⟩ : Assembly α) >>= finish ls) =
            (out ++ ·) <$> parseLocated (q ++ joined ls) := by
        intro out
        rw [← parseLocated_dropWhile]
        apply ih _ hlength _ _ (Pending.dropWhile hline) _ rfl
        intro p' c' q'' hp' _ x hx
        apply hline
        apply (List.dropWhile_sublist isBlank).mem
        rw [hp']
        exact List.mem_append_right p' (List.mem_cons_of_mem c' hx)
      rw [List.append_assoc, List.cons_append, parseLocated_semicolon (not_semicolon_of_text hsemi)
        hsemicolon, hb.statementAt_eq rfl]
      by_cases hblank : trim (p.map Prod.fst) = []
      · rw [if_pos hblank, if_pos hblank]
        exact hrest st.out
      · rw [if_neg hblank, if_neg hblank]
        dsimp only
        cases parseAt (α := α) st.startLine (trim (p.map Prod.fst)) with
        | error e => rfl
        | ok stmt =>
          have happended := hrest (st.out ++ [stmt])
          change (takeStatements lineno _ >>= finish ls) = _
          rw [happended]
          cases parseLocated (α := α) (q ++ joined ls) with
          | error e => rfl
          | ok stmts => exact congrArg Except.ok (List.append_assoc st.out [stmt] stmts)

/-- The line loop reads the script as the one pass reads the rest of it behind the buffer. -/
theorem finish_eq (ls : List (Text × ℕ)) (st : Assembly α) (b : Located) (hb : Pending st b)
    (hsemi : ∀ x ∈ b, isSemicolon x = false) :
    finish ls st = (st.out ++ ·) <$> parseLocated (b ++ joined ls) := by
  induction ls generalizing st b with
  | nil =>
    have hpiece := hb.statementAt_eq (List.append_nil b).symm
    rw [joined, List.append_nil, parseLocated_last hsemi, hpiece, hb.text]
    by_cases hblank : trim st.buf = []
    · rw [if_pos hblank]
      change (if trim st.buf ≠ [] then throw _ else pure st.out) = _
      rw [if_neg (not_not.mpr hblank)]
      exact congrArg Except.ok (List.append_nil st.out).symm
    · rw [if_neg hblank]
      change (if trim st.buf ≠ [] then throw _ else pure st.out) = _
      rw [if_pos hblank]
      rfl
  | cons raw ls ih =>
    have hcons : finish (raw :: ls) st = addLine st raw >>= finish ls := by
      rw [finish, List.foldlM_cons, bind_assoc]
      rfl
    rw [hcons, addLine, joined]
    by_cases hline : trim (stripComment raw.1) = []
    · rw [if_pos hline, if_pos hline]
      exact ih st b hb hsemi
    · rw [if_neg hline, if_neg hline]
      by_cases hbuf : st.buf = []
      · have hnil : b = [] := List.map_eq_nil_iff.mp (hb.text.trans hbuf)
        rw [if_pos hbuf, hnil, List.nil_append, parseLocated_white isWhitespace_space]
        apply finish_takeStatements (fun st b hb hsemi => ih st b hb hsemi) _ _ _ Pending.line
        intro p c q hsplit hc
        exact line_behind_semicolon (b := []) nofun (fun x hx => line_of_located hx) hsplit hc
      · rw [if_neg hbuf]
        have happend :
            b ++ (' ', raw.2) :: (located raw.2 (trim (stripComment raw.1)) ++ joined ls) =
              (b ++ (' ', raw.2) :: located raw.2 (trim (stripComment raw.1))) ++ joined ls := by
          rw [List.append_assoc, List.cons_append]
        rw [happend]
        apply finish_takeStatements (fun st b hb hsemi => ih st b hb hsemi) _ _ _
          (hb.append hbuf _ raw.2)
        intro p c q hsplit hc
        apply line_behind_semicolon hsemi _ hsplit hc
        exact List.forall_mem_cons.mpr ⟨rfl, fun x hx => line_of_located hx⟩

/-- The script on one line, every character with its physical line. -/
def oneLine (src : Text) : Located := joined ((lines src).zipIdx 1)

/-- Parsing is one pass over the script written on one line. -/
theorem parse_eq (src : Text) :
    (parse src : Except ParseError (List (Stmt α))) = parseLocated (oneLine src) := by
  have hstart : Pending (⟨[], [], 0⟩ : Assembly α) [] := ⟨rfl, nofun⟩
  have hfinish := finish_eq ((lines src).zipIdx 1) ⟨[], [], 0⟩ [] hstart nofun
  change finish _ _ = _
  rw [hfinish]
  change ([] ++ ·) <$> parseLocated (oneLine src) = parseLocated (oneLine src)
  cases parseLocated (α := α) (oneLine src) <;> rfl

end

/-- The texts that a semicolon ends, blank ones left out. -/
def statementsOf : Located → List Located → List (ℕ × Text)
  | _, [] => []
  | piece, next :: rest => (statementAt piece).toList ++ statementsOf next rest

/-- What is left behind the last semicolon, unless it is blank. -/
def remainderOf : Located → List Located → Option (ℕ × Text)
  | last, [] => statementAt last
  | _, next :: rest => remainderOf next rest

def statements (src : Text) : List (ℕ × Text) :=
  statementsOf (splitPieces isSemicolon (oneLine src)).1 (splitPieces isSemicolon (oneLine src)).2

def remainder (src : Text) : Option (ℕ × Text) :=
  remainderOf (splitPieces isSemicolon (oneLine src)).1 (splitPieces isSemicolon (oneLine src)).2

section

variable {α : Type} [HostDecimal α] [ScriptHost]

def Reads (text : ℕ × Text) (stmt : Stmt α) : Prop := parseStmt text.1 text.2 = .ok stmt

variable (α) in
/-- The error of the first text that is not read; behind them all, the one of a text without a
semicolon. -/
inductive FirstError (texts : List (ℕ × Text)) (left : Option (ℕ × Text)) : ParseError → Prop where
  | unread {before after : List (ℕ × Text)} {line : ℕ} {t : Text} {m : String} :
      texts = before ++ (line, t) :: after → (∀ text ∈ before, ∃ stmt : Stmt α, Reads text stmt) →
      (parseStmt line t : Except String (Stmt α)) = .error m → FirstError texts left ⟨line, m⟩
  | unterminated {line : ℕ} {t : Text} : (∀ text ∈ texts, ∃ stmt : Stmt α, Reads text stmt) →
      left = some (line, t) → FirstError texts left ⟨line, unterminated t⟩

theorem FirstError.cons {texts : List (ℕ × Text)} {left : Option (ℕ × Text)} {e : ParseError}
    {text : ℕ × Text} {stmt : Stmt α} (hstmt : Reads text stmt) (h : FirstError α texts left e) :
    FirstError α (text :: texts) left e := by
  cases h with
  | @unread before after line t m htexts hbefore hm =>
    have hsplit : text :: texts = (text :: before) ++ (line, t) :: after := congrArg _ htexts
    refine .unread hsplit ?_ hm
    exact List.forall_mem_cons.mpr ⟨⟨stmt, hstmt⟩, hbefore⟩
  | unterminated hall hleft =>
    exact .unterminated (List.forall_mem_cons.mpr ⟨⟨stmt, hstmt⟩, hall⟩) hleft

theorem parseAt_cases (line : ℕ) (t : Text) :
    (∃ stmt : Stmt α, Reads (line, t) stmt ∧ parseAt line t = .ok stmt) ∨
      ∃ m, (parseStmt line t : Except String (Stmt α)) = .error m ∧
        (parseAt line t : Except ParseError (Stmt α)) = .error ⟨line, m⟩ := by
  cases hstmt : (parseStmt line t : Except String (Stmt α)) with
  | ok stmt => exact .inl ⟨stmt, hstmt, by rw [parseAt, hstmt]⟩
  | error m => exact .inr ⟨m, rfl, by rw [parseAt, hstmt]⟩

/-- The pieces are read one after the other, up to the first error. -/
theorem parsePieces_cases (rest : List Located) : ∀ piece : Located,
    (∃ stmts : List (Stmt α), parsePieces piece rest = .ok stmts ∧ remainderOf piece rest = none ∧
      List.Forall₂ Reads (statementsOf piece rest) stmts) ∨
    ∃ e, (parsePieces piece rest : Except ParseError (List (Stmt α))) = .error e ∧
      FirstError α (statementsOf piece rest) (remainderOf piece rest) e := by
  induction rest with
  | nil =>
    intro last
    rw [parsePieces, remainderOf, statementsOf]
    cases hlast : statementAt last with
    | none => exact .inl ⟨[], rfl, rfl, .nil⟩
    | some text => exact .inr ⟨_, rfl, .unterminated (fun _ h => (by cases h)) rfl⟩
  | cons next rest ih =>
    intro piece
    rw [parsePieces, remainderOf, statementsOf]
    cases hpiece : statementAt piece with
    | none => exact ih next
    | some text =>
      obtain ⟨line, t⟩ := text
      dsimp only [Option.toList_some, List.singleton_append]
      rcases parseAt_cases (α := α) line t with ⟨stmt, hstmt, hat⟩ | ⟨m, hm, hat⟩
      · rw [hat]
        rcases ih next with ⟨stmts, hrest, hleft, hstmts⟩ | ⟨e, hrest, he⟩
        · exact .inl ⟨stmt :: stmts, by rw [hrest]; rfl, hleft, .cons hstmt hstmts⟩
        · exact .inr ⟨e, by rw [hrest]; rfl, he.cons hstmt⟩
      · rw [hat]
        have hsplit : (line, t) :: statementsOf next rest =
            [] ++ (line, t) :: statementsOf next rest := rfl
        exact .inr ⟨_, rfl, .unread hsplit (fun _ h => (by cases h)) hm⟩

/-- Parsing reads every statement of the script, or ends with the first error. -/
theorem parse_cases (src : Text) :
    (∃ stmts : List (Stmt α), parse src = .ok stmts ∧ remainder src = none ∧
      List.Forall₂ Reads (statements src) stmts) ∨
    ∃ e, (parse src : Except ParseError (List (Stmt α))) = .error e ∧
      FirstError α (statements src) (remainder src) e := by
  rw [parse_eq]
  exact parsePieces_cases _ _

end

end EcScriptAssembly
