import OdpPlatform.EcScriptAssembly

/-! # Layout of scripts

Two scripts with the same tokens hold the same statements as long as both keywords are followed by
a space, and every statement is recorded at the line of its first token. -/
namespace EcScriptLayout

open CharText EcScript EcScriptParser EcScriptSqueeze EcScriptStatements EcScriptAssembly

/-- The script without comments; the flag says whether one is open. -/
def uncomment : Bool → Text → Text
  | _, [] => []
  | comment, c :: t =>
    if c = '\n' then c :: uncomment false t
    else if comment || c == '#' then uncomment true t
    else c :: uncomment false t

/-- Without comments, a space at both ends, every run of whitespace one space. -/
def tokens (src : Text) : Text := squeeze (' ' :: (uncomment false src ++ [' ']))

def SameTokens (src src' : Text) : Prop := tokens src = tokens src'

instance (src src' : Text) : Decidable (SameTokens src src') :=
  inferInstanceAs (Decidable (_ = _))

def closed : Bool → Text → Bool
  | comment, [] => !comment
  | comment, c :: t =>
    if c = '\n' then closed false t else closed (comment || c == '#') t

theorem uncomment_append {comment : Bool} {a : Text} (ha : closed comment a = true) (b : Text) :
    uncomment comment (a ++ b) = uncomment comment a ++ uncomment false b := by
  induction a generalizing comment with
  | nil =>
    cases comment with
    | true => cases ha
    | false => rfl
  | cons c a ih =>
    rw [closed] at ha
    rw [List.cons_append, uncomment, uncomment]
    by_cases hc : c = '\n'
    · rw [if_pos hc] at ha
      rw [if_pos hc, if_pos hc, ih ha, List.cons_append]
    · rw [if_neg hc] at ha
      rw [if_neg hc, if_neg hc]
      cases hcomment : comment || c == '#' with
      | true =>
        rw [hcomment] at ha
        rw [if_pos rfl, if_pos rfl, ih ha]
      | false =>
        rw [hcomment] at ha
        rw [if_neg (by decide), if_neg (by decide), ih ha, List.cons_append]

structure IsGap (g : Text) : Prop where
  ne_nil : uncomment false g ≠ []
  blank : Blank (uncomment false g)
  closed : closed false g = true

instance (g : Text) : Decidable (IsGap g) :=
  decidable_of_iff (uncomment false g ≠ [] ∧ Blank (uncomment false g) ∧ closed false g = true)
    ⟨fun h => ⟨h.1, h.2.1, h.2.2⟩, fun h => ⟨h.ne_nil, h.blank, h.closed⟩⟩

/-- Replacing one gap by another keeps the tokens. -/
theorem sameTokens_of_gap {a g h : Text} (ha : closed false a = true) (hg : IsGap g) (hh : IsGap h)
    (b : Text) : SameTokens (a ++ (g ++ b)) (a ++ (h ++ b)) := by
  have hgap : ∀ {k : Text}, IsGap k → squeeze (uncomment false (k ++ b) ++ [' ']) =
      gap (squeeze (uncomment false b ++ [' '])) := by
    intro k hk
    rw [uncomment_append hk.closed, List.append_assoc, squeeze_run hk.ne_nil hk.blank]
  have hsame : squeeze (uncomment false (g ++ b) ++ [' ']) =
      squeeze (uncomment false (h ++ b) ++ [' ']) := by
    rw [hgap hg, hgap hh]
  rw [SameTokens, tokens, tokens, uncomment_append ha, uncomment_append ha, List.append_assoc,
    List.append_assoc, ← List.cons_append, ← List.cons_append]
  exact squeeze_append_congr _ hsame

theorem stripComment_eq (t : Text) : stripComment t = t.takeWhile (· != '#') := by
  rw [stripComment]
  have hsplit := @not_mem_of_splitOnce '#' t
  cases h : splitOnce ['#'] t with
  | none =>
    have hnone := hsplit.1 h
    symm
    rw [List.takeWhile_eq_self_iff]
    intro c hc
    rw [bne_iff_ne]
    rintro rfl
    exact hnone hc
  | some x =>
    obtain ⟨hfree, ht⟩ := hsplit.2 x.1 x.2 h
    have hall : ∀ c ∈ x.1, (c != '#') = true := by
      intro c hc
      rw [bne_iff_ne]
      rintro rfl
      exact hfree hc
    change x.1 = _
    rw [ht, List.takeWhile_append_of_pos hall]
    simp

theorem uncomment_line {p : Text} (hp : ∀ c ∈ p, (c == '\n') = false) :
    uncomment false p = stripComment p := by
  have htrue : ∀ q : Text, (∀ c ∈ q, (c == '\n') = false) → uncomment true q = [] := by
    intro q hq
    induction q with
    | nil => rfl
    | cons c q ih =>
      obtain ⟨hc, htail⟩ := List.forall_mem_cons.mp hq
      rw [uncomment, if_neg (by simpa using hc), if_pos (by simp), ih htail]
  rw [stripComment_eq]
  induction p with
  | nil => rfl
  | cons c p ih =>
    obtain ⟨hc, htail⟩ := List.forall_mem_cons.mp hp
    rw [uncomment, if_neg (by simpa using hc)]
    by_cases hhash : c = '#'
    · rw [if_pos (by simp [hhash]), htrue p htail, hhash]
      rfl
    · rw [if_neg (by simp [hhash]), ih htail, List.takeWhile_cons_of_pos (by simp [hhash])]

theorem uncomment_line_append {p : Text} (hp : ∀ c ∈ p, (c == '\n') = false) (q : Text) :
    uncomment false (p ++ '\n' :: q) = stripComment p ++ '\n' :: uncomment false q := by
  have hsplit : p ++ '\n' :: q = (p ++ ['\n']) ++ q := by rw [List.append_assoc]; rfl
  have hclosed : ∀ comment, closed comment (p ++ ['\n']) = true := by
    clear hsplit
    induction p with
    | nil => exact fun _ => rfl
    | cons c p ih =>
      intro comment
      obtain ⟨hc, htail⟩ := List.forall_mem_cons.mp hp
      rw [List.cons_append, closed, if_neg (by simpa using hc)]
      exact ih htail _
  have hline : ∀ comment, uncomment comment (p ++ ['\n']) = uncomment comment p ++ ['\n'] := by
    clear hsplit hclosed
    induction p with
    | nil => exact fun _ => rfl
    | cons c p ih =>
      intro comment
      obtain ⟨hc, htail⟩ := List.forall_mem_cons.mp hp
      have hnewline : c ≠ '\n' := by simpa using hc
      rw [List.cons_append, uncomment, uncomment, if_neg hnewline, if_neg hnewline]
      by_cases hcomment : (comment || c == '#') = true
      · rw [if_pos hcomment, if_pos hcomment]
        exact ih htail true
      · rw [if_neg hcomment, if_neg hcomment, ih htail, List.cons_append]
  rw [hsplit, uncomment_append (hclosed false), hline, uncomment_line hp, List.append_assoc]
  rfl

/-- The carriage return of a line ending is whitespace. -/
theorem trim_stripCarriageReturn (p : Text) :
    trim (stripComment (stripCarriageReturn p)) = trim (stripComment p) := by
  rw [stripCarriageReturn]
  cases h : stripSuffix ['\r'] p with
  | none => rfl
  | some l =>
    rw [stripSuffix_eq_some] at h
    rw [Option.getD_some, h, stripComment_eq, stripComment_eq, List.takeWhile_append]
    split
    next hall =>
      have hself : l.takeWhile (· != '#') = l :=
        (List.takeWhile_prefix _).eq_of_length hall
      rw [hself]
      exact (trim_append_white l (by decide)).symm
    · rfl

/-- A line in front of whitespace. -/
theorem squeeze_line (l : Text) (y : Text) :
    squeeze (' ' :: (l ++ ' ' :: y)) =
      if trim l = [] then squeeze (' ' :: y) else squeeze (' ' :: (trim l ++ ' ' :: y)) := by
  obtain ⟨g, h, hg, hh, hl⟩ := eq_trim l
  have hblank : ∀ {k : Text} (t : Text), Blank k →
      squeeze (' ' :: (k ++ t)) = squeeze (' ' :: t) := by
    intro k t hk
    have hrun : Blank (' ' :: k) := List.forall_mem_cons.mpr ⟨isWhitespace_space, hk⟩
    rw [← List.cons_append, squeeze_run (List.cons_ne_nil _ _) hrun,
      squeeze_white isWhitespace_space]
  have hend : squeeze (h ++ ' ' :: y) = squeeze (' ' :: y) := by
    have hrun : Blank (h ++ [' ']) := by
      intro c hc
      rcases List.mem_append.mp hc with hc | hc
      · exact hh c hc
      · rw [List.mem_singleton.mp hc]
        exact isWhitespace_space
    rw [show h ++ ' ' :: y = (h ++ [' ']) ++ y by rw [List.append_assoc]; rfl,
      squeeze_run (by simp) hrun, squeeze_white isWhitespace_space]
  have hsplit : squeeze (' ' :: (l ++ ' ' :: y)) = squeeze (' ' :: (trim l ++ ' ' :: y)) := by
    nth_rewrite 1 [hl]
    rw [List.append_assoc, List.append_assoc, hblank _ hg, ← List.cons_append, ← List.cons_append]
    exact squeeze_append_congr _ hend
  rw [hsplit]
  split
  next hnil =>
    rw [hnil, List.nil_append, squeeze_white isWhitespace_space, squeeze_white isWhitespace_space,
      gap_gap]
  · rfl

theorem squeeze_two_spaces (t : Text) : squeeze (' ' :: ' ' :: t) = squeeze (' ' :: t) := by
  rw [squeeze_white isWhitespace_space, squeeze_white isWhitespace_space, gap_gap]

theorem joined_space (ls : List (Text × ℕ)) :
    ∃ t, (joined ls).map Prod.fst ++ [' '] = ' ' :: t := by
  induction ls with
  | nil => exact ⟨[], rfl⟩
  | cons raw ls ih =>
    rw [joined]
    split
    · exact ih
    · exact ⟨_, rfl⟩

theorem squeeze_joined (ls : List (Text × ℕ)) :
    squeeze (' ' :: ((joined ls).map Prod.fst ++ [' '])) =
      squeeze ((joined ls).map Prod.fst ++ [' ']) := by
  obtain ⟨t, ht⟩ := joined_space ls
  rw [ht, squeeze_two_spaces]

/-- Trimming a line and dropping a blank one keep the tokens. -/
theorem squeeze_joined_cons (raw : Text × ℕ) (ls : List (Text × ℕ)) :
    squeeze (' ' :: ((joined (raw :: ls)).map Prod.fst ++ [' '])) =
      squeeze (' ' :: (stripComment raw.1 ++ ' ' :: ((joined ls).map Prod.fst ++ [' ']))) := by
  rw [squeeze_line (stripComment raw.1), joined]
  split
  · rfl
  · rw [List.map_cons, List.map_append, map_fst_located, List.cons_append, squeeze_two_spaces,
      List.append_assoc, ← List.cons_append, ← List.cons_append]
    exact squeeze_append_congr _ (squeeze_joined ls).symm

/-- The line loop keeps the tokens. -/
theorem squeeze_oneLine (src : Text) :
    squeeze (' ' :: ((oneLine src).map Prod.fst ++ [' '])) = tokens src := by
  have hlines : ∀ n, squeeze (' ' :: ((joined ((lines src).zipIdx n)).map Prod.fst ++ [' '])) =
      tokens src := by
    induction src using pieces_induction (· == '\n') with
    | last p hp =>
      intro n
      rw [lines_last hp, tokens, uncomment_line hp]
      by_cases hnil : p = []
      · rw [if_pos hnil, hnil]
        rfl
      · rw [if_neg hnil, List.zipIdx_singleton, squeeze_joined_cons, ← List.cons_append,
          ← List.cons_append]
        exact squeeze_append_congr _ (squeeze_two_spaces [])
    | more p c q hp hc ih =>
      intro n
      have hnewline : c = '\n' := by simpa using hc
      have hrest : squeeze (' ' :: ((joined ((lines q).zipIdx (n + 1))).map Prod.fst ++ [' '])) =
          squeeze ('\n' :: (uncomment false q ++ [' '])) := by
        rw [ih (n + 1), tokens, squeeze_white isWhitespace_space, squeeze_white (by decide)]
      rw [hnewline, lines_append hp, List.zipIdx_cons, squeeze_joined_cons, tokens,
        uncomment_line_append hp, List.append_assoc, List.cons_append]
      have hline := squeeze_line (stripComment (stripCarriageReturn p))
      rw [hline, trim_stripCarriageReturn, ← squeeze_line, ← List.cons_append, ← List.cons_append]
      exact squeeze_append_congr _ hrest
  exact hlines 1

/-- The texts between the semicolons of the one-line script, trimmed. -/
def statementTexts (src : Text) : List Text :=
  (split ';' ((oneLine src).map Prod.fst)).map trim

/-- Whitespace at the ends of a text is whitespace at the ends of its pieces. -/
theorem trim_pieces (t : Text) :
    (split ';' (' ' :: (t ++ [' ']))).map trim = (split ';' t).map trim := by
  have hfront : ∀ u : Text, (split ';' (' ' :: u)).map trim = (split ';' u).map trim := by
    intro u
    have hcons : split ';' (' ' :: u) =
        (' ' :: (splitPieces (· == ';') u).1) :: (splitPieces (· == ';') u).2 := rfl
    rw [hcons, split]
    exact congrArg (· :: _) (trim_white isWhitespace_space _)
  rw [hfront]
  induction t using pieces_induction (· == ';') with
  | last p hp =>
    have hspace : ∀ c ∈ p ++ [' '], (c == ';') = false := by
      intro c hc
      rcases List.mem_append.mp hc with hc | hc
      · exact hp c hc
      · rw [List.mem_singleton.mp hc]
        rfl
    rw [split, split, splitPieces_none hp, splitPieces_none hspace]
    exact congrArg (· :: []) (trim_append_white p isWhitespace_space)
  | more p c q hp hc ih =>
    rw [split, split] at ih ⊢
    rw [List.append_assoc, List.cons_append, splitPieces_append hp hc, splitPieces_append hp hc]
    exact congrArg (trim p :: ·) ih

/-- Squeezed, the statement texts are those of the tokens. -/
theorem squeeze_statementTexts (src : Text) :
    (statementTexts src).map squeeze = (split ';' (tokens src)).map trim := by
  rw [← squeeze_oneLine, split_squeeze ';' (by decide), statementTexts, ← trim_pieces, List.map_map,
    List.map_map]
  apply List.map_congr_left
  exact fun p _ => squeeze_trim p

theorem statementAt_eq (piece : Located) :
    (statementAt piece = none ∧ trim (piece.map Prod.fst) = []) ∨
      ∃ line, statementAt piece = some (line, trim (piece.map Prod.fst)) ∧
        trim (piece.map Prod.fst) ≠ [] := by
  induction piece with
  | nil => exact .inl ⟨rfl, rfl⟩
  | cons x piece ih =>
    cases hx : isWhitespace x.1 with
    | true => rwa [statementAt_white hx, List.map_cons, trim_white hx]
    | false =>
      rw [statementAt_solid hx, List.map_cons]
      exact .inr ⟨x.2, rfl, trim_solid_ne_nil hx _⟩

/-- In every statement, whitespace behind `let` and `sleep` starts with a space. -/
def KeywordsSpaced (src : Text) : Prop := ∀ t ∈ statementTexts src, KeywordSpaced t

theorem keywordSpaced_nil : KeywordSpaced [] := by
  intro kw _ c rest h
  simp at h

section

variable {α : Type} [HostDecimal α] [ScriptHost]

def readTexts : Text → List Text → Option (List (Stmt α))
  | last, [] => if last = [] then some [] else none
  | t, next :: rest =>
    if t = [] then readTexts next rest
    else do
      let stmt ← readStmt 0 t
      let stmts ← readTexts next rest
      pure (stmt :: stmts)

/-- What is read of a statement does not depend on its line. -/
theorem readStmt_line (line : ℕ) (t : Text) :
    (readStmt line t : Option (Stmt α)) = readStmt 0 t := by
  by_cases ht : KeywordSpaced t
  · rw [← readStmt_squeeze ht line 0, ← readStmt_squeeze ht 0 0]
  · have hnone : ∀ n, (readStmt n t : Option (Stmt α)) = none := by
      intro n
      rw [readStmt, Option.map_eq_none_iff, Option.eq_none_iff_forall_ne_some]
      intro stmt hstmt
      exact ht (keywordSpaced_of_parseStmt (toOption_eq_some.mp hstmt))
    rw [hnone, hnone]

/-- The statements of a script without their lines and source texts. -/
def readScript (src : Text) : Option (List (Stmt α)) :=
  (parse src).toOption.map (List.map eraseLayout)

theorem toOption_parsePieces (piece : Located) (rest : List Located) :
    (parsePieces (α := α) piece rest).toOption.map (List.map eraseLayout) =
      readTexts (trim (piece.map Prod.fst)) (rest.map fun p => trim (p.map Prod.fst)) := by
  induction rest generalizing piece with
  | nil =>
    rw [parsePieces, List.map_nil, readTexts]
    rcases statementAt_eq piece with ⟨hpiece, htext⟩ | ⟨line, hpiece, htext⟩
    · rw [hpiece, if_pos htext]
      rfl
    · rw [hpiece, if_neg htext]
      rfl
  | cons next rest ih =>
    rw [parsePieces, List.map_cons, readTexts]
    rcases statementAt_eq piece with ⟨hpiece, htext⟩ | ⟨line, hpiece, htext⟩
    · rw [hpiece, if_pos htext]
      exact ih next
    · have hread := readStmt_line (α := α) line (trim (piece.map Prod.fst))
      rw [hpiece, if_neg htext, ← ih next, ← hread, readStmt]
      dsimp only
      rw [parseAt]
      cases parseStmt (α := α) line (trim (piece.map Prod.fst)) with
      | error m => rfl
      | ok stmt => cases parsePieces (α := α) next rest <;> rfl

/-- A script is read text by text. -/
theorem readScript_eq (src : Text) :
    (readScript src : Option (List (Stmt α))) = match statementTexts src with
      | [] => none
      | t :: rest => readTexts t rest := by
  have hsemi : isSemicolon = (· == ';') ∘ Prod.fst := rfl
  rw [readScript, parse_eq, parseLocated, toOption_parsePieces, statementTexts, split,
    splitPieces_map, hsemi, List.map_cons, List.map_map]
  rfl

/-- Texts with spaced keywords are read as the squeezed texts are. -/
theorem readTexts_squeeze (t : Text) (rest : List Text) (ht : ∀ u ∈ t :: rest, KeywordSpaced u) :
    (readTexts (squeeze t) (rest.map squeeze) : Option (List (Stmt α))) = readTexts t rest := by
  induction rest generalizing t with
  | nil =>
    rw [List.map_nil, readTexts, readTexts]
    simp only [squeeze_eq_nil]
  | cons next rest ih =>
    obtain ⟨hhead, htail⟩ := List.forall_mem_cons.mp ht
    rw [List.map_cons, readTexts, readTexts, ih next htail, readStmt_squeeze hhead 0 0]
    simp only [squeeze_eq_nil]

/-- Texts that are read have spaced keywords. -/
theorem keywordSpaced_of_readTexts (t : Text) (rest : List Text) {stmts : List (Stmt α)}
    (h : readTexts t rest = some stmts) : ∀ u ∈ t :: rest, KeywordSpaced u := by
  induction rest generalizing t stmts with
  | nil =>
    rw [readTexts] at h
    split at h
    next hnil =>
      rw [hnil]
      exact List.forall_mem_singleton.mpr keywordSpaced_nil
    · cases h
  | cons next rest ih =>
    rw [readTexts] at h
    split at h
    next hnil =>
      rw [hnil]
      exact List.forall_mem_cons.mpr ⟨keywordSpaced_nil, ih next h⟩
    · obtain ⟨stmt, hstmt, hrest⟩ := Option.bind_eq_some_iff.mp h
      obtain ⟨tail, htail, -⟩ := Option.bind_eq_some_iff.mp hrest
      obtain ⟨full, hfull, -⟩ := Option.map_eq_some_iff.mp hstmt
      exact List.forall_mem_cons.mpr
        ⟨keywordSpaced_of_parseStmt (toOption_eq_some.mp hfull), ih next htail⟩

/-- A script is read as its tokens are if its keywords are spaced, and is not read otherwise. -/
theorem readScript_of_spaced {src : Text} (h : KeywordsSpaced src) :
    (readScript src : Option (List (Stmt α))) = match (split ';' (tokens src)).map trim with
      | [] => none
      | t :: rest => readTexts t rest := by
  rw [readScript_eq, ← squeeze_statementTexts]
  rw [KeywordsSpaced] at h
  cases htexts : statementTexts src with
  | nil => rfl
  | cons t rest =>
    rw [htexts] at h
    exact (readTexts_squeeze t rest h).symm

theorem spaced_of_readScript {src : Text} {stmts : List (Stmt α)}
    (h : readScript src = some stmts) : KeywordsSpaced src := by
  rw [readScript_eq] at h
  rw [KeywordsSpaced]
  cases htexts : statementTexts src with
  | nil => exact nofun
  | cons t rest =>
    rw [htexts] at h
    exact keywordSpaced_of_readTexts t rest h

end

end EcScriptLayout
