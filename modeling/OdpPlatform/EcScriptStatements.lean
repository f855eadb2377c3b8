import OdpPlatform.EcScriptSqueeze

/-! # One statement in two layouts

A statement is read alike from two texts that differ in their whitespace, as long as the keyword
`let` or `sleep` is followed by a space. -/
namespace EcScriptStatements

open CharText EcScript EcScriptParser EcScriptSqueeze

variable {α : Type}

def eraseLayout : Stmt α → Stmt α
  | .check _ _ call verb => .check 0 "" call verb
  | .letStmt _ _ name call => .letStmt 0 "" name call
  | .sleep _ microseconds => .sleep 0 microseconds

def stmtLine : Stmt α → ℕ
  | .check line _ _ _ => line
  | .letStmt line _ _ _ => line
  | .sleep line _ => line

def keywords : List Text := ["sleep".toList, "let".toList]

theorem solid_keyword {kw : Text} (hkw : kw ∈ keywords) : Solid kw := by
  simp only [keywords, List.mem_cons, List.not_mem_nil, or_false] at hkw
  rcases hkw with rfl | rfl <;> decide

def KeywordSpaced (t : Text) : Prop :=
  ∀ kw ∈ keywords, ∀ c rest, t = kw ++ c :: rest → isWhitespace c = true → c = ' '

/-- A keyword with its space is in the text as in the squeezed text. -/
theorem stripPrefix_keyword_squeeze (kw : Text) {t : Text} (hkw : kw ∈ keywords)
    (ht : KeywordSpaced t) :
    (stripPrefix (kw ++ [' ']) t = none → stripPrefix (kw ++ [' ']) (squeeze t) = none) ∧
    ∀ rest, stripPrefix (kw ++ [' ']) t = some rest → ∃ rest',
      stripPrefix (kw ++ [' ']) (squeeze t) = some rest' ∧
        squeeze (' ' :: rest) = ' ' :: rest' := by
  have hsolid := solid_keyword hkw
  constructor
  · intro hnone
    rw [Option.eq_none_iff_forall_ne_some]
    intro m hm
    rw [stripPrefix_eq_some, List.append_assoc] at hm
    have hkeyword := stripPrefix_squeeze kw hsolid t
    rw [stripPrefix_eq_some.mpr hm] at hkeyword
    obtain ⟨u, hu, hum⟩ := Option.map_eq_some_iff.mp hkeyword.symm
    rw [stripPrefix_eq_some] at hu
    match u with
    | [] => cases hum
    | c :: u =>
      have hwhite : isWhitespace c = true := by
        by_contra hc
        rw [Bool.not_eq_true] at hc
        rw [squeeze_solid hc] at hum
        exact ne_space hc (List.cons_eq_cons.mp hum).1
      have hspace := ht kw hkw c u hu hwhite
      have hsome : stripPrefix (kw ++ [' ']) t = some u := by
        rw [stripPrefix_eq_some, hu, hspace, List.append_assoc]
        rfl
      rw [hsome] at hnone
      cases hnone
  · intro rest hrest
    rw [stripPrefix_eq_some, List.append_assoc] at hrest
    obtain ⟨m, hm⟩ := gap_eq_cons (squeeze rest)
    have hsqueeze : squeeze (' ' :: rest) = ' ' :: m := by
      rw [squeeze_white isWhitespace_space, hm]
    refine ⟨m, ?_, hsqueeze⟩
    rw [stripPrefix_eq_some, hrest, hsolid.squeeze_append, List.append_assoc]
    exact congrArg (kw ++ ·) hsqueeze

section

variable [ScriptHost]

theorem erase_sleep (line line' : ℕ) {rest rest' : Text}
    (hrest : squeeze (' ' :: rest) = ' ' :: rest') :
    ((Stmt.sleep line' <$> parseDuration (trim rest') : Except String (Stmt α))).toOption.map
        eraseLayout =
      ((Stmt.sleep line <$> parseDuration (trim rest) : Except String (Stmt α))).toOption.map
        eraseLayout := by
  have htrim : trim rest' = squeeze (trim rest) := by
    rw [← trim_white isWhitespace_space rest', ← hrest, ← squeeze_trim,
      trim_white isWhitespace_space]
  rw [htrim, toOption_map, toOption_map, layoutFree_parseDuration (trim rest)]
  cases (parseDuration (trim rest)).toOption <;> rfl

variable [HostDecimal α]

theorem erase_parseCheck (line line' : ℕ) (t : Text) :
    (parseCheck (α := α) line' (squeeze t)).toOption.map eraseLayout =
      (parseCheck (α := α) line t).toOption.map eraseLayout := by
  simp only [parseCheck, splitOnce_squeeze "=>".toList (by decide) (by decide)]
  cases splitOnce "=>".toList t with
  | none => rfl
  | some x =>
    simp only [Option.map_some, toOption_bind, ← squeeze_trim, layoutFree_parseCall (trim x.1),
      layoutFree_parseVerb (trim x.2)]
    cases (parseCall (α := α) (trim x.1)).toOption with
    | none => rfl
    | some call =>
      cases (parseVerb (α := α) (trim x.2)).toOption with
      | none => rfl
      | some verb => rfl

/-- The texts behind `let`, the one with the space in front squeezed. -/
theorem erase_parseLet (line line' : ℕ) (src src' : Text) {rest rest' : Text}
    (hrest : squeeze (' ' :: rest) = ' ' :: rest') :
    (parseLet (α := α) line' src' rest').toOption.map eraseLayout =
      (parseLet (α := α) line src rest).toOption.map eraseLayout := by
  have hspace : ∀ u : Text, splitOnce ['='] (' ' :: u) =
      (splitOnce ['='] u).map fun x => (' ' :: x.1, x.2) := fun u =>
    (headSplit_splitOnce (p := '=') (by decide) []).white () ' ' u isWhitespace_space
  have hboth := splitOnce_squeeze ['='] (by decide) (by decide) (' ' :: rest)
  rw [hrest, hspace, hspace] at hboth
  simp only [parseLet]
  cases h : splitOnce ['='] rest with
  | none =>
    rw [h] at hboth
    rw [Option.map_eq_none_iff.mp hboth]
    rfl
  | some x =>
    rw [h] at hboth
    obtain ⟨y, hy, hxy⟩ := Option.map_eq_some_iff.mp hboth
    obtain ⟨hname, hexpr⟩ := Prod.mk.inj hxy
    have htrim : trim y.1 = squeeze (trim x.1) := by
      rw [← trim_white isWhitespace_space y.1, hname, ← squeeze_trim,
        trim_white isWhitespace_space]
    rw [hy]
    dsimp only
    rw [htrim, isIdent_squeeze, hexpr, ← squeeze_trim]
    cases hident : isIdent (trim x.1) with
    | false => rfl
    | true =>
      rw [(solid_of_isIdent hident).squeeze_eq]
      simp only [if_true, toOption_bind, layoutFree_parseCall (trim x.2)]
      cases (parseCall (α := α) (trim x.2)).toOption with
      | none => rfl
      | some call => rfl

/-- What is read of a statement, line and source apart. -/
def readStmt (line : ℕ) (t : Text) : Option (Stmt α) := (parseStmt line t).toOption.map eraseLayout

/-- A statement with spaced keywords is read as its squeezed text is. -/
theorem readStmt_squeeze {t : Text} (ht : KeywordSpaced t) (line line' : ℕ) :
    (readStmt line' (squeeze t) : Option (Stmt α)) = readStmt line t := by
  have hsleep := stripPrefix_keyword_squeeze "sleep".toList (by decide) ht
  have hlet := stripPrefix_keyword_squeeze "let".toList (by decide) ht
  simp only [readStmt, parseStmt]
  cases h : stripPrefix "sleep ".toList t with
  | some rest =>
    obtain ⟨rest', h', hrest⟩ := hsleep.2 rest h
    have h'' : stripPrefix "sleep ".toList (squeeze t) = some rest' := h'
    rw [h'']
    exact erase_sleep line line' hrest
  | none =>
    have h' : stripPrefix "sleep ".toList (squeeze t) = none := hsleep.1 h
    rw [h']
    cases g : stripPrefix "let ".toList t with
    | some rest =>
      obtain ⟨rest', g', hrest⟩ := hlet.2 rest g
      have g'' : stripPrefix "let ".toList (squeeze t) = some rest' := g'
      rw [g'']
      exact erase_parseLet line line' t (squeeze t) hrest
    | none =>
      have g' : stripPrefix "let ".toList (squeeze t) = none := hlet.1 g
      rw [g']
      exact erase_parseCheck line line' t

/-- A call starts with its target. -/
theorem parseCall_head {c : Char} {t : Text} {call : Call α} (hc : isWhitespace c = false)
    (hother : c ≠ '(' ∧ c ≠ ')' ∧ c ≠ '.') (h : parseCall (c :: t) = .ok call) :
    c = 't' ∨ c = 'b' ∨ c = 'r' := by
  have hsplit : splitDots 0 (c :: t) = (splitDots 0 t).map fun x => (c :: x.1, x.2) := by
    rw [splitDots, if_neg hother.1, if_neg hother.2.1, if_neg fun h => hother.2.2 h.1]
  simp only [parseCall, hsplit] at h
  cases hdots : splitDots 0 t with
  | none =>
    rw [hdots] at h
    cases h
  | some x =>
    obtain ⟨target, parts⟩ := x
    rw [hdots] at h
    cases parts with
    | nil => cases h
    | cons method rest =>
      have htrim : trim (c :: target) = c :: trimEnd target := by
        rw [trim, trimStart_solid hc, trimEnd_solid hc]
      simp only [Option.map_some, htrim] at h
      cases htarget : parseTarget (c :: trimEnd target) with
      | error e =>
        rw [htarget] at h
        cases h
      | ok tgt =>
        unfold parseTarget at htarget
        split at htarget
        next heq => exact .inl (List.cons_eq_cons.mp heq).1
        · split at htarget
          next heq => exact .inr (.inl (List.cons_eq_cons.mp heq).1)
          · split at htarget
            next heq => exact .inr (.inr (List.cons_eq_cons.mp heq).1)
            · cases htarget

/-- A check does not start with the first character of a keyword. -/
theorem parseCheck_head {c : Char} {t : Text} (hc : c = 's' ∨ c = 'l') (line : ℕ) :
    (parseCheck (α := α) line (c :: t)).toOption = none := by
  rw [Option.eq_none_iff_forall_ne_some]
  intro stmt hstmt
  rw [toOption_eq_some] at hstmt
  simp only [parseCheck] at hstmt
  cases hsplit : splitOnce "=>".toList (c :: t) with
  | none =>
    rw [hsplit] at hstmt
    cases hstmt
  | some x =>
    obtain ⟨call, verb⟩ := x
    rw [hsplit] at hstmt
    have happend := append_of_splitOnce hsplit
    match call with
    | [] =>
      have hhead := (List.cons_eq_cons.mp happend).1
      rw [hhead] at hc
      exact absurd hc (by decide)
    | d :: call =>
      have hd : d = c := (List.cons_eq_cons.mp happend).1.symm
      subst hd
      have hsolid : isWhitespace d = false := by
        rcases hc with rfl | rfl <;> decide
      have hother : d ≠ '(' ∧ d ≠ ')' ∧ d ≠ '.' := by
        rcases hc with rfl | rfl <;> decide
      have htrim : trim (d :: call) = d :: trimEnd call := by
        rw [trim, trimStart_solid hsolid, trimEnd_solid hsolid]
      dsimp only at hstmt
      rw [htrim] at hstmt
      cases hcall : parseCall (α := α) (d :: trimEnd call) with
      | error e =>
        simp only [hcall] at hstmt
        cases hstmt
      | ok c' =>
        have hhead := parseCall_head hsolid hother hcall
        rcases hc with rfl | rfl
        · exact absurd hhead (by decide)
        · exact absurd hhead (by decide)

/-- Only statements with spaced keywords are read. -/
theorem keywordSpaced_of_parseStmt {line : ℕ} {t : Text} {stmt : Stmt α}
    (h : parseStmt line t = .ok stmt) : KeywordSpaced t := by
  intro kw hkw c rest ht hc
  by_contra hne
  -- neither keyword is taken, and no check starts with one
  have hcheck : ∀ d u, t = d :: u → d = 's' ∨ d = 'l' → stripPrefix "sleep ".toList t = none →
      stripPrefix "let ".toList t = none → False := by
    rintro d u rfl hd hsleep hlet
    simp only [parseStmt, hsleep, hlet] at h
    have hnone := parseCheck_head (α := α) (t := u) hd line
    rw [h] at hnone
    cases hnone
  have hnot : ∀ w : Text, (∀ v, t ≠ w ++ v) → stripPrefix w t = none := by
    intro w hw
    rw [Option.eq_none_iff_forall_ne_some]
    exact fun v hv => hw v (stripPrefix_eq_some.mp hv)
  simp only [keywords, List.mem_cons, List.not_mem_nil, or_false] at hkw
  rcases hkw with rfl | rfl
  · apply hcheck _ _ ht (.inl rfl)
    · apply hnot
      intro v hv
      rw [ht] at hv
      have hboth : c = ' ' ∧ rest = v := by simpa using hv
      exact hne hboth.1
    · apply hnot
      intro v hv
      rw [ht] at hv
      simp at hv
  · apply hcheck _ _ ht (.inr rfl)
    · apply hnot
      intro v hv
      rw [ht] at hv
      simp at hv
    · apply hnot
      intro v hv
      rw [ht] at hv
      have hboth : c = ' ' ∧ rest = v := by simpa using hv
      exact hne hboth.1

end

end EcScriptStatements
