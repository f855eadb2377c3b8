import Mathlib
import OdpPlatform.EcScriptParser

/-! # What the parser sees of whitespace

Every reader of a part of a statement takes a text and the squeezed text alike, the error texts
apart. Only the two keywords are told from a text by the space behind them. -/
namespace EcScriptSqueeze

open CharText EcScript EcScriptParser

section Results

variable {ε β γ : Type}

theorem toOption_bind (x : Except ε β) (f : β → Except ε γ) :
    (x >>= f).toOption = x.toOption.bind fun a => (f a).toOption := by
  cases x <;> rfl

theorem toOption_map (x : Except ε β) (f : β → γ) : (f <$> x).toOption = x.toOption.map f := by
  cases x <;> rfl

theorem toOption_eq_some {x : Except ε β} {a : β} : x.toOption = some a ↔ x = .ok a := by
  cases x <;> simp [Except.toOption]

theorem toOption_ite {c c' : Prop} [Decidable c] [Decidable c'] {x y x' y' : Except ε β}
    (hc : c' ↔ c) (hx : x'.toOption = x.toOption) (hy : y'.toOption = y.toOption) :
    (if c' then x' else y').toOption = (if c then x else y).toOption := by
  by_cases h : c
  · rw [if_pos h, if_pos (hc.mpr h), hx]
  · rw [if_neg h, if_neg (fun h' => h (hc.mp h')), hy]

end Results

def LayoutFree {β : Type} (f : Text → Except String β) : Prop :=
  ∀ s, (f (squeeze s)).toOption = (f s).toOption

/-- A reader of texts without whitespace. -/
theorem squeeze_invariant {β : Type} {f : Text → Option β} (hf : ∀ s x, f s = some x → Solid s)
    (s : Text) : f (squeeze s) = f s := by
  by_cases hs : Solid s
  · rw [hs.squeeze_eq]
  · have hnone : ∀ u, ¬Solid u → f u = none := by
      intro u hu
      rw [Option.eq_none_iff_forall_ne_some]
      exact fun x hx => hu (hf u x hx)
    rw [hnone s hs, hnone _ (solid_squeeze.not.mpr hs)]

theorem isWhitespace_eq_false {c : Char} (hlow : 33 ≤ c.toNat) (hhigh : c.toNat ≤ 126) :
    isWhitespace c = false := by
  simp only [isWhitespace, Bool.or_eq_false_iff, Bool.and_eq_false_iff, decide_eq_false_iff_not,
    beq_eq_false_iff_ne]
  omega

theorem solid_of_forall {p : Char → Bool} (hp : ∀ c, p c = true → isWhitespace c = false) {t : Text}
    (ht : t.all p = true) : Solid t :=
  fun c hc => hp c (List.all_eq_true.mp ht c hc)

theorem solid_takeWhile {p : Char → Bool} (hp : ∀ c, p c = true → isWhitespace c = false)
    (t : Text) : Solid (t.takeWhile p) :=
  fun c hc => hp c (List.mem_takeWhile_imp hc)

theorem solid_append {a b : Text} (ha : Solid a) (hb : Solid b) : Solid (a ++ b) := by
  intro c hc
  rcases List.mem_append.mp hc with h | h
  · exact ha c h
  · exact hb c h

theorem not_white_digit {c : Char} (hc : c.isDigit = true) : isWhitespace c = false := by
  have hrange : 48 ≤ c.toNat ∧ c.toNat ≤ 57 := by
    simpa [Char.isDigit, UInt32.le_iff_toNat_le] using hc
  exact isWhitespace_eq_false (by omega) (by omega)

theorem not_white_alpha {c : Char} (hc : c.isAlpha = true) : isWhitespace c = false := by
  have hrange : (65 ≤ c.toNat ∧ c.toNat ≤ 90) ∨ (97 ≤ c.toNat ∧ c.toNat ≤ 122) := by
    simpa [Char.isAlpha, Char.isUpper, Char.isLower, UInt32.le_iff_toNat_le] using hc
  exact isWhitespace_eq_false (by omega) (by omega)

theorem solid_of_splitSign {t : Text} (ht : Solid (splitSign t).2) : Solid t := by
  unfold splitSign at ht
  split at ht
  · exact solid_cons.mpr ⟨by decide, ht⟩
  · exact solid_cons.mpr ⟨by decide, ht⟩
  · exact ht

theorem solid_of_parseExponent {t : Text} {e : ℤ} (h : parseExponent t = some e) : Solid t := by
  match t with
  | [] => nofun
  | c :: t =>
    simp only [parseExponent] at h
    split at h
    next hall =>
      obtain ⟨hc, -, hdigits⟩ := hall
      have hsolid : isWhitespace c = false := by
        rcases hc with rfl | rfl <;> decide
      exact solid_cons.mpr ⟨hsolid, solid_of_splitSign (solid_of_forall @not_white_digit hdigits)⟩
    · cases h

theorem solid_of_splitFraction {t : Text} (ht : Solid (splitFraction t).2) : Solid t := by
  unfold splitFraction at ht
  split at ht
  next t =>
    have hsplit := List.takeWhile_append_dropWhile (p := Char.isDigit) (l := t)
    refine solid_cons.mpr ⟨by decide, ?_⟩
    rw [← hsplit]
    exact solid_append (solid_takeWhile @not_white_digit t) ht
  · exact ht

/-- Lower case is whitespace where the character is. -/
theorem not_white_toLower {c : Char} (hc : isWhitespace c.toLower = false) :
    isWhitespace c = false := by
  by_cases hupper : 65 ≤ c.toNat ∧ c.toNat ≤ 90
  · exact isWhitespace_eq_false (by omega) (by omega)
  · have hlower : c.toLower = c := by
      have hnot : ¬(c.val ≥ 'A'.val ∧ c.val ≤ 'Z'.val) := by
        simpa [UInt32.le_iff_toNat_le] using hupper
      rw [Char.toLower, dif_neg hnot]
    rw [hlower] at hc
    exact hc

theorem solid_of_map_toLower {t w : Text} (hw : Solid w) (h : t.map Char.toLower = w) :
    Solid t := by
  subst h
  exact fun c hc => not_white_toLower (hw _ (List.mem_map_of_mem hc))

section

variable {α : Type} [HostDecimal α]

theorem solid_of_parseDecimal {negative : Bool} {t : Text} {n : α}
    (h : parseDecimal negative t = some n) : Solid t := by
  have hsplit := List.takeWhile_append_dropWhile (p := Char.isDigit) (l := t)
  have hwhole := solid_takeWhile @not_white_digit t
  rw [← hsplit]
  apply solid_append hwhole
  simp only [parseDecimal] at h
  split at h
  · cases h
  · obtain ⟨e, he, -⟩ := Option.map_eq_some_iff.mp h
    exact solid_of_splitFraction (solid_of_parseExponent he)

theorem solid_of_parseF64 {t : Text} {n : α} (h : parseF64 t = some n) : Solid t := by
  apply solid_of_splitSign
  simp only [parseF64] at h
  split at h
  next hinf =>
    rcases hinf with hinf | hinf
    · exact solid_of_map_toLower (by decide) hinf
    · exact solid_of_map_toLower (by decide) hinf
  · split at h
    next hnan => exact solid_of_map_toLower (by decide) hnan
    · exact solid_of_parseDecimal h

theorem parseF64_squeeze (t : Text) : (parseF64 (squeeze t) : Option α) = parseF64 t :=
  squeeze_invariant (fun _ _ => solid_of_parseF64) t

end

theorem not_white_toDigit {radix d : ℕ} {c : Char} (h : toDigit radix c = some d) :
    isWhitespace c = false := by
  by_cases hdigit : c.isDigit
  · exact not_white_digit hdigit
  · by_cases halpha : c.isAlpha
    · exact not_white_alpha halpha
    · rw [Char.isAlpha, Bool.not_eq_true, Bool.or_eq_false_iff] at halpha
      simp [toDigit, hdigit, halpha] at h

theorem solid_of_parseDigits {radix bound n m : ℕ} {t : Text}
    (h : parseDigits radix bound n t = .ok m) : Solid t := by
  induction t generalizing n with
  | nil => nofun
  | cons c t ih =>
    simp only [parseDigits] at h
    split at h
    · cases h
    next d hd =>
      split at h
      · exact solid_cons.mpr ⟨not_white_toDigit hd, ih h⟩
      · cases h

theorem solid_of_parseU64 {t : Text} {n : ℕ} (h : parseU64 t = .ok n) : Solid t := by
  unfold parseU64 at h
  split at h
  · cases h
  · cases h
  · exact solid_cons.mpr ⟨by decide, solid_of_parseDigits h⟩
  · exact solid_of_parseDigits h

theorem parseU64_squeeze (t : Text) : (parseU64 (squeeze t)).toOption = (parseU64 t).toOption :=
  squeeze_invariant (f := fun t => (parseU64 t).toOption)
    (fun _ _ h => solid_of_parseU64 (toOption_eq_some.mp h)) t

theorem solid_of_isIdent {t : Text} (h : isIdent t = true) : Solid t := by
  have hword : ∀ c : Char, (c.isAlphanum || c == '_') = true → isWhitespace c = false := by
    intro c hc
    rw [Bool.or_eq_true, Char.isAlphanum, Bool.or_eq_true, beq_iff_eq] at hc
    rcases hc with (hc | hc) | rfl
    · exact not_white_alpha hc
    · exact not_white_digit hc
    · decide
  match t with
  | [] => nofun
  | c :: t =>
    rw [isIdent, Bool.and_eq_true] at h
    refine solid_cons.mpr ⟨hword c ?_, solid_of_forall hword h.2⟩
    rw [Bool.or_eq_true] at h ⊢
    rw [Char.isAlphanum, Bool.or_eq_true]
    exact h.1.imp .inl id

theorem isIdent_squeeze (t : Text) : isIdent (squeeze t) = isIdent t := by
  have h := squeeze_invariant (f := fun t => if isIdent t then some () else none)
    (fun s x hs => solid_of_isIdent (Option.ite_none_right_eq_some.mp hs).1) t
  cases h₁ : isIdent t <;> cases h₂ : isIdent (squeeze t) <;> simp_all

section

variable {α : Type} [HostDecimal α]

theorem layoutFree_parseOperand : LayoutFree (parseOperand (α := α)) := by
  intro s
  simp only [parseOperand, ← squeeze_trim, parseF64_squeeze, isIdent_squeeze]
  apply toOption_ite (squeeze_eq_iff (by decide)) rfl
  apply toOption_ite (squeeze_eq_iff (by decide)) rfl
  cases (parseF64 (trim s) : Option α) with
  | some n => rfl
  | none =>
    cases hident : isIdent (trim s) with
    | true =>
      rw [(solid_of_isIdent hident).squeeze_eq]
    | false => rfl

theorem layoutFree_parseNum : LayoutFree (parseNum (α := α)) := by
  intro s
  simp only [parseNum, ← squeeze_trim, parseF64_squeeze]
  cases (parseF64 (trim s) : Option α) <;> rfl

/-- The two ends of a range. -/
theorem toOption_ends (lo hi : Text) (inclusive : Bool) :
    (do let lo ← parseNum (α := α) (squeeze lo)
        let hi ← parseNum (α := α) (squeeze hi)
        pure (lo, hi, inclusive) : Except String (α × α × Bool)).toOption =
      (do let lo ← parseNum (α := α) lo
          let hi ← parseNum (α := α) hi
          pure (lo, hi, inclusive) : Except String (α × α × Bool)).toOption := by
  simp only [toOption_bind, layoutFree_parseNum lo, layoutFree_parseNum hi]

theorem layoutFree_parseRange : LayoutFree (parseRange (α := α)) := by
  intro s
  have hinclusive := splitOnce_squeeze "..=".toList (by decide) (by decide) (trim s)
  have hopen := splitOnce_squeeze "..".toList (by decide) (by decide) (trim s)
  simp only [parseRange, ← squeeze_trim, hinclusive, hopen]
  cases splitOnce "..=".toList (trim s) with
  | some x => exact toOption_ends x.1 x.2 true
  | none =>
    cases splitOnce "..".toList (trim s) with
    | some x => exact toOption_ends x.1 x.2 false
    | none => rfl

end

theorem layoutFree_parseDuration [ScriptHost] : LayoutFree parseDuration := by
  intro s
  have hwhite : ∀ c, isWhitespace c = true → (!ScriptHost.isAlphabetic c) = true := by
    intro c hc
    rw [ScriptHost.isAlphabetic_white c hc]
    rfl
  have hnum := parseU64_squeeze (trim ((trim s).takeWhile fun c => !ScriptHost.isAlphabetic c))
  simp only [parseDuration, ← squeeze_trim, takeWhile_squeeze hwhite, dropWhile_squeeze hwhite]
  generalize (trim s).dropWhile (fun c => !ScriptHost.isAlphabetic c) = rest
  have hunit : trim (if squeeze rest = [] then "ms".toList else squeeze rest) =
      squeeze (trim (if rest = [] then "ms".toList else rest)) := by
    by_cases hrest : rest = []
    · rw [hrest]
      rfl
    · rw [if_neg hrest, if_neg (squeeze_eq_nil.not.mpr hrest), squeeze_trim]
  rw [hunit]
  cases hn : parseU64 (trim ((trim s).takeWhile fun c => !ScriptHost.isAlphabetic c)) with
  | error e =>
    rw [hn] at hnum
    cases hn' : parseU64 (squeeze (trim ((trim s).takeWhile fun c => !ScriptHost.isAlphabetic c))) with
    | error e' => rfl
    | ok n' =>
      rw [hn'] at hnum
      cases hnum
  | ok n =>
    rw [hn] at hnum
    rw [toOption_eq_some.mp hnum]
    apply toOption_ite (squeeze_eq_iff (by decide)) rfl
    apply toOption_ite (squeeze_eq_iff (by decide)) rfl
    exact toOption_ite (squeeze_eq_iff (by decide)) rfl rfl

theorem layoutFree_parseTimer : LayoutFree parseTimer := by
  intro s
  apply toOption_ite (squeeze_eq_iff (by decide)) rfl
  exact toOption_ite (squeeze_eq_iff (by decide)) rfl rfl

theorem toOption_parseThreshold (s shown shown' : Text) :
    (parseThreshold (squeeze s) shown').toOption = (parseThreshold s shown).toOption := by
  apply toOption_ite (squeeze_eq_iff (by decide)) rfl
  apply toOption_ite (squeeze_eq_iff (by decide)) rfl
  exact toOption_ite (squeeze_eq_iff (by decide)) rfl rfl

section

variable {α : Type} [HostDecimal α]

theorem toOption_splitTimerOperand (name name' s : Text) :
    (splitTimerOperand (α := α) name' (squeeze s)).toOption =
      (splitTimerOperand (α := α) name s).toOption := by
  simp only [splitTimerOperand, splitOnce_squeeze [','] (by decide) (by decide) s]
  cases splitOnce [','] s with
  | none => rfl
  | some x =>
    simp only [Option.map_some, toOption_bind, ← squeeze_trim, layoutFree_parseTimer (trim x.1),
      layoutFree_parseOperand (trim x.2)]

theorem layoutFree_splitThresholdOperand : LayoutFree (splitThresholdOperand (α := α)) := by
  intro s
  simp only [splitThresholdOperand, splitOnce_squeeze [','] (by decide) (by decide) s]
  cases splitOnce [','] s with
  | none => rfl
  | some x =>
    simp only [Option.map_some, toOption_bind, ← squeeze_trim,
      toOption_parseThreshold (trim x.1) x.1, layoutFree_parseOperand (trim x.2)]

end

theorem toOption_parseU8Literal_of_not_solid {s : Text} (hs : ¬Solid (trim s)) :
    (parseU8Literal s).toOption = none := by
  have hdigit : ∀ radix, ∀ c, (toDigit radix c).isSome = true → isWhitespace c = false := by
    intro radix c hc
    obtain ⟨d, hd⟩ := Option.isSome_iff_exists.mp hc
    exact not_white_toDigit hd
  simp only [parseU8Literal]
  cases hprefix : (stripPrefix "0x".toList (trim s)).or (stripPrefix "0X".toList (trim s)) with
  | none =>
    rw [if_pos]
    · rfl
    · exact .inr fun hall => hs (solid_of_forall (hdigit 10) hall)
  | some hex =>
    rw [if_pos]
    · rfl
    · refine .inr fun hall => hs ?_
      have hhex := solid_of_forall (hdigit 16) hall
      rcases Option.or_eq_some_iff.mp hprefix with h | ⟨-, h⟩
      · rw [stripPrefix_eq_some.mp h]
        exact solid_append (by decide) hhex
      · rw [stripPrefix_eq_some.mp h]
        exact solid_append (by decide) hhex

theorem layoutFree_parseU8Literal : LayoutFree parseU8Literal := by
  intro s
  by_cases hs : Solid (trim s)
  · simp only [parseU8Literal, ← squeeze_trim, hs.squeeze_eq]
  · rw [toOption_parseU8Literal_of_not_solid hs, toOption_parseU8Literal_of_not_solid]
    rw [← squeeze_trim]
    exact solid_squeeze.not.mpr hs

theorem toOption_parseBytes (pieces : List Text) :
    (parseBytes (pieces.map squeeze)).toOption = (parseBytes pieces).toOption := by
  induction pieces with
  | nil => rfl
  | cons s pieces ih =>
    simp only [List.map_cons, parseBytes, toOption_bind, layoutFree_parseU8Literal s, ih]

/-- An optional part at the end. -/
theorem getD_stripSuffix_squeeze (pat : Text) (hpat : Solid pat) (s : Text) :
    (stripSuffix pat (squeeze s)).getD (squeeze s) = squeeze ((stripSuffix pat s).getD s) := by
  rw [stripSuffix_squeeze pat hpat]
  cases stripSuffix pat s <;> rfl

theorem layoutFree_parseTimestampBuffer [ScriptHost] : LayoutFree parseTimestampBuffer := by
  intro s
  have hsize : ((stripPrefix "Buffer".toList (squeeze s)).bind fun s =>
        stripPrefix ['('] (trimStart s)).bind (splitOnce [')']) =
      (((stripPrefix "Buffer".toList s).bind fun s =>
        stripPrefix ['('] (trimStart s)).bind (splitOnce [')'])).map
          fun x => (squeeze x.1, squeeze x.2) := by
    rw [stripPrefix_squeeze "Buffer".toList (by decide)]
    cases stripPrefix "Buffer".toList s with
    | none => rfl
    | some u =>
      simp only [Option.map_some, Option.bind_some, ← squeeze_trimStart,
        stripPrefix_squeeze ['('] (by decide)]
      cases stripPrefix ['('] (trimStart u) with
      | none => rfl
      | some v => exact splitOnce_squeeze [')'] (by decide) (by decide) v
  have hbraces : ∀ rest : Text, (stripPrefix ['\x7b'] (trim (squeeze rest))).bind
        (stripSuffix ['\x7d']) =
      ((stripPrefix ['\x7b'] (trim rest)).bind (stripSuffix ['\x7d'])).map squeeze := by
    intro rest
    rw [← squeeze_trim, stripPrefix_squeeze ['\x7b'] (by decide)]
    cases stripPrefix ['\x7b'] (trim rest) with
    | none => rfl
    | some u => exact stripSuffix_squeeze ['\x7d'] (by decide) u
  simp only [parseTimestampBuffer, hsize]
  cases ((stripPrefix "Buffer".toList s).bind fun s => stripPrefix ['('] (trimStart s)).bind
      (splitOnce [')']) with
  | none => rfl
  | some x =>
    simp only [Option.map_some, toOption_bind, layoutFree_parseU8Literal x.1, hbraces]
    congr 1
    funext size
    apply toOption_ite Iff.rfl rfl
    cases (stripPrefix ['\x7b'] (trim x.2)).bind (stripSuffix ['\x7d']) with
    | none => rfl
    | some initializer =>
      simp only [Option.map_some, toOption_bind, ← squeeze_trim,
        getD_stripSuffix_squeeze [','] (by decide), split_squeeze ',' (by decide),
        toOption_parseBytes]

section Methods

variable {α : Type}

theorem toOption_noArg (name name' : Text) (arg : Option Text) (m : Method α) :
    (noArg name' (arg.map squeeze) m).toOption = (noArg name arg m).toOption := by
  match arg with
  | none => rfl
  | some [] => rfl
  | some (c :: a) =>
    obtain ⟨d, b, hd⟩ := List.exists_cons_of_ne_nil
      (squeeze_eq_nil.not.mpr (List.cons_ne_nil c a))
    rw [Option.map_some, hd]
    rfl

theorem toOption_readArg {β : Type} (name name' : Text) (arg : Option Text)
    {read read' : Text → Except String β}
    (hread : ∀ s, (read' (squeeze s)).toOption = (read s).toOption) (m : β → Method α) :
    (readArg name' (arg.map squeeze) read' m).toOption = (readArg name arg read m).toOption := by
  match arg with
  | none => rfl
  | some [] => rfl
  | some (c :: a) =>
    have hne := squeeze_eq_nil.not.mpr (List.cons_ne_nil c a)
    have harg : needArg name' (some (squeeze (c :: a))) = .ok (squeeze (c :: a)) := by
      obtain ⟨d, b, hd⟩ := List.exists_cons_of_ne_nil hne
      rw [hd]
      rfl
    rw [readArg, Option.map_some, harg]
    change (m <$> read' (squeeze (c :: a))).toOption = (m <$> read (c :: a)).toOption
    rw [toOption_map, toOption_map, hread]

variable [HostDecimal α]

theorem toOption_buildThermal (name : Text) (arg : Option Text) :
    (buildThermal (α := α) (squeeze name) (arg.map squeeze)).toOption =
      (buildThermal (α := α) name arg).toOption := by
  apply toOption_ite (squeeze_eq_iff (by decide)) (toOption_noArg _ _ _ _)
  apply toOption_ite (squeeze_eq_iff (by decide)) (toOption_noArg _ _ _ _)
  apply toOption_ite (squeeze_eq_iff (by decide)) (toOption_noArg _ _ _ _)
  apply toOption_ite (squeeze_eq_iff (by decide)) (toOption_noArg _ _ _ _)
  apply toOption_ite (squeeze_eq_iff (by decide))
    (toOption_readArg _ _ _ (fun s => toOption_parseThreshold s s (squeeze s)) _)
  apply toOption_ite (squeeze_eq_iff (by decide))
    (toOption_readArg _ _ _ layoutFree_parseOperand _)
  exact toOption_ite (squeeze_eq_iff (by decide))
    (toOption_readArg _ _ _ layoutFree_splitThresholdOperand _) rfl

theorem toOption_buildBattery (name : Text) (arg : Option Text) :
    (buildBattery (α := α) (squeeze name) (arg.map squeeze)).toOption =
      (buildBattery (α := α) name arg).toOption := by
  apply toOption_ite (squeeze_eq_iff (by decide)) (toOption_noArg _ _ _ _)
  apply toOption_ite (squeeze_eq_iff (by decide)) (toOption_noArg _ _ _ _)
  exact toOption_ite (squeeze_eq_iff (by decide))
    (toOption_readArg _ _ _ layoutFree_parseOperand _) rfl

variable [ScriptHost]

theorem toOption_buildRtc (name : Text) (arg : Option Text) :
    (buildRtc (α := α) (squeeze name) (arg.map squeeze)).toOption =
      (buildRtc (α := α) name arg).toOption := by
  apply toOption_ite (squeeze_eq_iff (by decide)) (toOption_noArg _ _ _ _)
  apply toOption_ite (squeeze_eq_iff (by decide)) (toOption_noArg _ _ _ _)
  apply toOption_ite (squeeze_eq_iff (by decide))
    (toOption_readArg _ _ _ layoutFree_parseTimestampBuffer _)
  apply toOption_ite (squeeze_eq_iff (by decide)) (toOption_readArg _ _ _ layoutFree_parseTimer _)
  apply toOption_ite (squeeze_eq_iff (by decide)) (toOption_readArg _ _ _ layoutFree_parseTimer _)
  apply toOption_ite (squeeze_eq_iff (by decide)) (toOption_readArg _ _ _ layoutFree_parseTimer _)
  apply toOption_ite (squeeze_eq_iff (by decide))
    (toOption_readArg _ _ _ (toOption_splitTimerOperand name _) _)
  apply toOption_ite (squeeze_eq_iff (by decide))
    (toOption_readArg _ _ _ (toOption_splitTimerOperand name _) _)
  exact toOption_ite (squeeze_eq_iff (by decide))
    (toOption_readArg _ _ _ layoutFree_parseTimer _) rfl

theorem toOption_buildMethod (target : Target) (name : Text) (arg : Option Text) :
    (buildMethod (α := α) target (squeeze name) (arg.map squeeze)).toOption =
      (buildMethod (α := α) target name arg).toOption := by
  cases target with
  | thermal => exact toOption_buildThermal name arg
  | battery => exact toOption_buildBattery name arg
  | rtc => exact toOption_buildRtc name arg

end Methods

theorem headSplit_splitDots : HeadSplit splitDots where
  nil depth x hx := by
    simp only [splitDots] at hx
    split at hx
    · cases hx
      rfl
    · cases hx
  white depth c t hc := by
    have hne : ∀ d : Char, isWhitespace d = false → c ≠ d := by
      rintro d hd rfl
      rw [hd] at hc
      cases hc
    rw [splitDots, if_neg (hne '(' rfl), if_neg (hne ')' rfl), if_neg fun h => hne '.' rfl h.1]
  head depth c t x hx := by
    have hmap : ∀ {o : Option (Text × List Text)},
        (o.map fun x => (c :: x.1, x.2)) = some x → x.1 = [] ∨ ∃ a, x.1 = c :: a := by
      intro o ho
      obtain ⟨y, -, rfl⟩ := Option.map_eq_some_iff.mp ho
      exact .inr ⟨y.1, rfl⟩
    simp only [splitDots] at hx
    split at hx
    · exact hmap hx
    · split at hx
      · split at hx
        · cases hx
        · exact hmap hx
      · split at hx
        · obtain ⟨y, -, rfl⟩ := Option.map_eq_some_iff.mp hx
          exact .inl rfl
        · exact hmap hx

theorem splitDots_squeeze (depth : ℕ) (t : Text) :
    splitDots depth (squeeze t) =
      (splitDots depth t).map fun x => (squeeze x.1, x.2.map squeeze) := by
  apply headSplit_splitDots.squeeze_pieces
  · intro depth x hx
    simp only [splitDots] at hx
    split at hx
    · cases hx
      rfl
    · cases hx
  · intro depth c t hc ih
    have hmap : ∀ o : Option (Text × List Text),
        ((o.map fun x => (squeeze x.1, x.2.map squeeze)).map fun x => (c :: x.1, x.2)) =
          (o.map fun x => (c :: x.1, x.2)).map fun x => (squeeze x.1, x.2.map squeeze) := by
      intro o
      cases o with
      | none => rfl
      | some x => exact congrArg some (Prod.ext (squeeze_solid hc x.1).symm rfl)
    simp only [splitDots, ih]
    split
    · exact hmap _
    · split
      · split
        · rfl
        · exact hmap _
      · split
        · cases splitDots depth t <;> rfl
        · exact hmap _

theorem layoutFree_parseTarget : LayoutFree parseTarget := by
  intro s
  apply toOption_ite (squeeze_eq_iff (by decide)) rfl
  apply toOption_ite (squeeze_eq_iff (by decide)) rfl
  exact toOption_ite (squeeze_eq_iff (by decide)) rfl rfl

theorem toOption_splitCall (s : Text) :
    (splitCall (squeeze s)).toOption =
      (splitCall s).toOption.map fun x => (squeeze x.1, x.2.map squeeze) := by
  simp only [splitCall, splitOnce_squeeze ['('] (by decide) (by decide)]
  cases splitOnce ['('] s with
  | none => rfl
  | some x =>
    simp only [Option.map_some, rsplitOnce_squeeze ')' (by decide)]
    cases rsplitOnce ')' x.2 with
    | none =>
      simp only [Option.map_none]
      split <;> split <;> rfl
    | some y =>
      simp only [Option.map_some, squeeze_eq_nil, ne_eq]
      split
      · rfl
      · exact congrArg some (Prod.ext (squeeze_trim x.1).symm
          (congrArg some (squeeze_trim y.1).symm))

theorem accessor_squeeze (s : Text) : accessor (squeeze s) = squeeze (accessor s) := by
  simp only [accessor, ← squeeze_trim, getD_stripSuffix_squeeze "()".toList (by decide)]

theorem solid_of_isAccessor {p : Text} (h : isAccessor p = true) : Solid p := by
  rw [isAccessor, Bool.or_eq_true] at h
  rcases h with h | h
  · exact solid_of_isIdent h
  · exact solid_of_forall @not_white_digit h

theorem isAccessor_squeeze (p : Text) : isAccessor (squeeze p) = isAccessor p := by
  have h := squeeze_invariant (f := fun t => if isAccessor t then some () else none)
    (fun s x hs => solid_of_isAccessor (Option.ite_none_right_eq_some.mp hs).1) p
  cases h₁ : isAccessor p <;> cases h₂ : isAccessor (squeeze p) <;> simp_all

section

variable {α : Type}

/-- The check of the accessors, and the call. -/
theorem toOption_projection (target : Target) (method : Method α) (projection : List Text) :
    (match (projection.map squeeze).find? fun p => !isAccessor p with
      | some p => .error ("invalid accessor " ++ quote p)
      | none => pure ⟨target, method, (projection.map squeeze).map String.ofList⟩ :
        Except String (Call α)).toOption =
      (match projection.find? fun p => !isAccessor p with
      | some p => .error ("invalid accessor " ++ quote p)
      | none => pure ⟨target, method, projection.map String.ofList⟩ :
        Except String (Call α)).toOption := by
  have hfind : (projection.map squeeze).find? (fun p => !isAccessor p) =
      (projection.find? fun p => !isAccessor p).map squeeze := by
    rw [List.find?_map]
    congr 2
    funext p
    exact congrArg (!·) (isAccessor_squeeze p)
  rw [hfind]
  cases hp : projection.find? fun p => !isAccessor p with
  | some p => rfl
  | none =>
    have hsame : projection.map squeeze = projection.map id := by
      apply List.map_congr_left
      intro p hmem
      have haccessor : isAccessor p = true := by simpa using List.find?_eq_none.mp hp p hmem
      exact (solid_of_isAccessor haccessor).squeeze_eq
    rw [hsame, List.map_id]
    rfl

variable [HostDecimal α] [ScriptHost]

theorem layoutFree_parseCall : LayoutFree (parseCall (α := α)) := by
  intro src
  simp only [parseCall, splitDots_squeeze]
  cases splitDots 0 src with
  | none => rfl
  | some x =>
    obtain ⟨target, parts⟩ := x
    cases parts with
    | nil => rfl
    | cons method rest =>
      simp only [Option.map_some, List.map_cons, toOption_bind, ← squeeze_trim,
        layoutFree_parseTarget (trim target), toOption_splitCall]
      congr 1
      funext target
      rw [Option.bind_map]
      congr 1
      funext call
      rw [Function.comp_apply, toOption_buildMethod]
      congr 1
      funext m
      have hprojection : (rest.map squeeze).map accessor = (rest.map accessor).map squeeze := by
        rw [List.map_map, List.map_map]
        congr 1
        funext s
        exact accessor_squeeze s
      rw [hprojection]
      exact toOption_projection target m (rest.map accessor)

end

theorem splitWhitespaceOnce_eq_none {t : Text} (h : splitWhitespaceOnce t = none) : Solid t := by
  rw [splitWhitespaceOnce] at h
  split at h
  next hdrop =>
    intro c hc
    have hall := List.dropWhile_eq_nil_iff.mp hdrop c hc
    simpa using hall
  · cases h

section

variable {α : Type} [HostDecimal α]

theorem toOption_needOperand (v tail : Text) :
    (needOperand (α := α) v (squeeze tail)).toOption =
      (needOperand (α := α) v tail).toOption :=
  toOption_ite squeeze_eq_nil rfl (layoutFree_parseOperand tail)

theorem toOption_needRange (v tail : Text) :
    (needRange (α := α) v (squeeze tail)).toOption = (needRange (α := α) v tail).toOption :=
  toOption_ite squeeze_eq_nil rfl (layoutFree_parseRange tail)

theorem toOption_verbOf (head tail : Text) :
    (verbOf (α := α) head (squeeze tail)).toOption = (verbOf (α := α) head tail).toOption := by
  simp only [verbOf, apply_ite Except.toOption, toOption_map, toOption_needOperand,
    toOption_needRange]

theorem layoutFree_parseVerb : LayoutFree (parseVerb (α := α)) := by
  intro src
  have hsplit := splitWhitespaceOnce_squeeze src
  rw [parseVerb, parseVerb]
  cases h : splitWhitespaceOnce src with
  | none =>
    rw [(splitWhitespaceOnce_eq_none h).squeeze_eq, h]
  | some x =>
    rw [h] at hsplit
    obtain ⟨y, hy, hxy⟩ := Option.map_eq_some_iff.mp hsplit
    rw [hy]
    obtain ⟨hhead, htail⟩ := Prod.mk.inj hxy
    dsimp only
    rw [hhead, htail, toOption_verbOf]

end

end EcScriptSqueeze
