import OdpPlatform.EcScriptRelaid

/-! # test-script: numbers, operands and ranges

The texts that stand for them, and that the parser takes exactly these. -/
namespace EcScriptOperands

open CharText EcScript EcScriptParser EcScriptSqueeze EcScriptRelaid

inductive IsSign : Text → Prop where
  | none : IsSign []
  | plus : IsSign ['+']
  | minus : IsSign ['-']

/-- Possibly none. -/
def IsDigits (t : Text) : Prop := ∀ c ∈ t, c.isDigit = true

inductive IsExponent : Text → Prop where
  | none : IsExponent []
  | some {e : Char} {sign digits : Text} : e = 'e' ∨ e = 'E' → IsSign sign → digits ≠ [] →
      IsDigits digits → IsExponent (e :: (sign ++ digits))

inductive IsDecimal : Text → Prop where
  | whole {digits exponent : Text} : digits ≠ [] → IsDigits digits → IsExponent exponent →
      IsDecimal (digits ++ exponent)
  | point {digits fraction exponent : Text} : digits ++ fraction ≠ [] → IsDigits digits →
      IsDigits fraction → IsExponent exponent → IsDecimal (digits ++ '.' :: (fraction ++ exponent))

def numberNames : List Text := ["inf".toList, "infinity".toList, "nan".toList]

inductive IsNumber : Text → Prop where
  | decimal {sign t : Text} : IsSign sign → IsDecimal t → IsNumber (sign ++ t)
  | named {sign t : Text} : IsSign sign → t.map Char.toLower ∈ numberNames → IsNumber (sign ++ t)

def IsOperand (t : Text) : Prop := IsNumber t ∨ isIdent t = true

inductive IsRange : Text → Prop where
  | exclusive {lo hi : Text} : IsNumber (trim lo) → IsNumber (trim hi) →
      IsRange (lo ++ "..".toList ++ hi)
  | inclusive {lo hi : Text} : IsNumber (trim lo) → IsNumber (trim hi) →
      IsRange (lo ++ "..=".toList ++ hi)

/-- A lower end whose point stands in front of `..`, and an upper end that takes no more point. -/
def PointedRange (t : Text) : Prop :=
  ∃ lo hi, t = lo ++ '.' :: "..".toList ++ hi ∧ IsNumber (trim (lo ++ ['.'])) ∧
    IsNumber (trim hi) ∧ ¬IsNumber (trim ('.' :: hi))

theorem eq_splitSign (t : Text) : ∃ sign, IsSign sign ∧ t = sign ++ (splitSign t).2 := by
  unfold splitSign
  split
  · exact ⟨_, .minus, rfl⟩
  · exact ⟨_, .plus, rfl⟩
  · exact ⟨_, .none, rfl⟩

theorem splitSign_append {sign t : Text} (hsign : IsSign sign)
    (ht : ∀ c ∈ t.head?, c ≠ '+' ∧ c ≠ '-') : (splitSign (sign ++ t)).2 = t := by
  cases hsign with
  | plus => rfl
  | minus => rfl
  | none =>
    rw [List.nil_append]
    unfold splitSign
    split
    · exact absurd rfl (ht _ rfl).2
    · exact absurd rfl (ht _ rfl).1
    · rfl

theorem not_sign_of_digit {c : Char} (hc : c.isDigit = true) : c ≠ '+' ∧ c ≠ '-' := by
  constructor
  · rintro rfl
    cases hc
  · rintro rfl
    cases hc

theorem IsDigits.head {t : Text} (ht : IsDigits t) : ∀ c ∈ t.head?, c ≠ '+' ∧ c ≠ '-' :=
  fun c hc => not_sign_of_digit (ht c (List.mem_of_mem_head? hc))

theorem takeWhile_digits {t r : Text} (ht : IsDigits t) (hr : ∀ c ∈ r.head?, c.isDigit = false) :
    (t ++ r).takeWhile Char.isDigit = t ∧ (t ++ r).dropWhile Char.isDigit = r := by
  rw [List.takeWhile_append_of_pos ht, List.dropWhile_append_of_pos ht]
  cases r with
  | nil => exact ⟨List.append_nil t, rfl⟩
  | cons c r =>
    have hc : ¬c.isDigit = true := by
      rw [hr c rfl]
      decide
    rw [List.takeWhile_cons_of_neg hc, List.dropWhile_cons_of_neg hc, List.append_nil]
    exact ⟨rfl, rfl⟩

theorem isDigits_takeWhile (t : Text) : IsDigits (t.takeWhile Char.isDigit) :=
  fun _ hc => List.mem_takeWhile_imp hc

theorem isSome_parseExponent {t : Text} : (parseExponent t).isSome ↔ IsExponent t := by
  constructor
  · intro h
    cases t with
    | nil => exact .none
    | cons c t =>
      simp only [parseExponent] at h
      split at h
      next hexponent =>
        obtain ⟨sign, hsign, ht⟩ := eq_splitSign t
        rw [ht]
        exact .some hexponent.1 hsign hexponent.2.1 (List.all_eq_true.mp hexponent.2.2)
      · cases h
  · intro h
    cases h with
    | none => rfl
    | some he hsign hne hdigits =>
      simp only [parseExponent, splitSign_append hsign hdigits.head]
      rw [if_pos ⟨he, hne, List.all_eq_true.mpr hdigits⟩]
      rfl

theorem splitFraction_eq (t : Text) :
    (∃ r, t = '.' :: r ∧ splitFraction t = (r.takeWhile Char.isDigit, r.dropWhile Char.isDigit)) ∨
      splitFraction t = ([], t) := by
  unfold splitFraction
  split
  · exact .inl ⟨_, rfl, rfl⟩
  · exact .inr rfl

theorem IsExponent.head {t : Text} (ht : IsExponent t) :
    ∀ c ∈ t.head?, c.isDigit = false ∧ c ≠ '.' := by
  cases ht with
  | none => nofun
  | some he =>
    rintro c hc
    cases hc
    rcases he with rfl | rfl <;> decide

section Decimals

variable {α : Type} [HostDecimal α]

theorem isSome_parseDecimal {negative : Bool} {t : Text} :
    (parseDecimal negative t : Option α).isSome ↔ IsDecimal t := by
  constructor
  · intro h
    have hsplit := List.takeWhile_append_dropWhile (p := Char.isDigit) (l := t)
    have hwhole := isDigits_takeWhile t
    simp only [parseDecimal] at h
    generalize t.dropWhile Char.isDigit = r at h hsplit
    generalize t.takeWhile Char.isDigit = whole at h hsplit hwhole
    subst hsplit
    rcases splitFraction_eq r with ⟨r, rfl, hr⟩ | hr
    · simp only [hr] at h
      split at h
      · cases h
      next hne =>
        rw [Option.isSome_map, isSome_parseExponent] at h
        rw [← List.takeWhile_append_dropWhile (p := Char.isDigit) (l := r)]
        apply IsDecimal.point _ hwhole (isDigits_takeWhile r) h
        rw [ne_eq, List.append_eq_nil_iff]
        exact hne
    · simp only [hr] at h
      split at h
      · cases h
      next hne =>
        rw [Option.isSome_map, isSome_parseExponent] at h
        exact .whole (fun hnil => hne ⟨hnil, trivial⟩) hwhole h
  · intro h
    cases h with
    | @whole digits exponent hne hdigits hexponent =>
      obtain ⟨htake, hdrop⟩ := takeWhile_digits hdigits fun c hc => (hexponent.head c hc).1
      have hfraction : splitFraction exponent = ([], exponent) := by
        rcases splitFraction_eq exponent with ⟨r, rfl, -⟩ | hfraction
        · exact absurd rfl (hexponent.head _ rfl).2
        · exact hfraction
      simp only [parseDecimal, htake, hdrop, hfraction]
      rw [if_neg fun h => hne h.1, Option.isSome_map]
      exact isSome_parseExponent.mpr hexponent
    | @point digits fraction exponent hne hdigits hfraction hexponent =>
      obtain ⟨htake, hdrop⟩ := takeWhile_digits (r := '.' :: (fraction ++ exponent)) hdigits (by
        rintro c hc
        cases hc
        rfl)
      obtain ⟨htake', hdrop'⟩ := takeWhile_digits hfraction fun c hc => (hexponent.head c hc).1
      simp only [parseDecimal, htake, hdrop, splitFraction, htake', hdrop']
      rw [if_neg fun h => hne (List.append_eq_nil_iff.mpr h), Option.isSome_map]
      exact isSome_parseExponent.mpr hexponent

theorem IsDecimal.exists_cons {t : Text} (ht : IsDecimal t) :
    ∃ c u, t = c :: u ∧ (c.isDigit = true ∨ c = '.') := by
  cases ht with
  | @whole digits exponent hne hdigits =>
    obtain ⟨d, digits, rfl⟩ := List.exists_cons_of_ne_nil hne
    exact ⟨d, _, rfl, .inl (hdigits d List.mem_cons_self)⟩
  | @point digits fraction exponent _ hdigits =>
    cases digits with
    | nil => exact ⟨'.', _, rfl, .inr rfl⟩
    | cons d digits => exact ⟨d, _, rfl, .inl (hdigits d List.mem_cons_self)⟩

theorem IsDecimal.head {t : Text} (ht : IsDecimal t) : ∀ c ∈ t.head?, c ≠ '+' ∧ c ≠ '-' := by
  obtain ⟨c, u, rfl, hc⟩ := ht.exists_cons
  intro d hd
  cases hd
  rcases hc with hc | rfl
  · exact not_sign_of_digit hc
  · decide

/-- A name of a number starts with a letter. -/
theorem head_of_numberName {t : Text} (ht : t.map Char.toLower ∈ numberNames) :
    ∀ c ∈ t.head?, c ≠ '+' ∧ c ≠ '-' := by
  cases t with
  | nil => nofun
  | cons d t =>
    rintro c hc
    cases hc
    constructor
    · rintro rfl
      simp [numberNames] at ht
    · rintro rfl
      simp [numberNames] at ht

/-- `parse::<f64>()` takes the numbers. -/
theorem isSome_parseF64 {t : Text} : (parseF64 t : Option α).isSome ↔ IsNumber t := by
  constructor
  · intro h
    obtain ⟨sign, hsign, ht⟩ := eq_splitSign t
    simp only [parseF64] at h
    rw [ht]
    split at h
    next hname =>
      apply IsNumber.named hsign
      rcases hname with hname | hname <;> rw [hname] <;> decide
    · split at h
      next hname =>
        apply IsNumber.named hsign
        rw [hname]
        decide
      · exact .decimal hsign (isSome_parseDecimal.mp h)
  · intro h
    cases h with
    | decimal hsign hdecimal =>
      simp only [parseF64, splitSign_append hsign hdecimal.head]
      split
      · rfl
      · split
        · rfl
        · exact isSome_parseDecimal.mpr hdecimal
    | named hsign hname =>
      simp only [parseF64, splitSign_append hsign (head_of_numberName hname)]
      simp only [numberNames, List.mem_cons, List.not_mem_nil, or_false] at hname
      rcases hname with hname | hname | hname <;> rw [hname] <;> rfl

end Decimals

/-- Digits, letters, signs and the point. -/
def numberChar (c : Char) : Bool := c.isAlphanum || c == '+' || c == '-' || c == '.'

theorem IsSign.all {t : Text} (ht : IsSign t) : t.all numberChar = true := by
  cases ht <;> decide

theorem numberChar_of_digit {c : Char} (hc : c.isDigit = true) : numberChar c = true := by
  simp [numberChar, Char.isAlphanum, hc]

theorem IsDigits.all {t : Text} (ht : IsDigits t) : t.all numberChar = true :=
  List.all_eq_true.mpr fun c hc => numberChar_of_digit (ht c hc)

theorem IsExponent.all {t : Text} (ht : IsExponent t) : t.all numberChar = true := by
  cases ht with
  | none => rfl
  | some he hsign _ hdigits =>
    rw [List.all_cons, List.all_append, hsign.all, hdigits.all]
    rcases he with rfl | rfl <;> decide

theorem IsDecimal.all {t : Text} (ht : IsDecimal t) : t.all numberChar = true := by
  cases ht with
  | whole _ hdigits hexponent => rw [List.all_append, hdigits.all, hexponent.all, Bool.true_and]
  | point _ hdigits hfraction hexponent =>
    rw [List.all_append, List.all_cons, List.all_append, hdigits.all, hfraction.all, hexponent.all]
    rfl

theorem isAlpha_of_toLower {c : Char} (hc : c.toLower.isAlpha = true) : c.isAlpha = true := by
  by_cases hupper : c.isUpper = true
  · rw [Char.isAlpha, hupper]
    rfl
  · have hsame : c.toLower = c := by
      rw [Char.toLower, dif_neg]
      simpa [Char.isUpper] using hupper
    rwa [hsame] at hc

theorem isAlpha_of_numberName {t : Text} (ht : t.map Char.toLower ∈ numberNames) :
    ∀ c ∈ t, c.isAlpha = true := by
  have hletters : (t.map Char.toLower).all Char.isAlpha = true := by
    simp only [numberNames, List.mem_cons, List.not_mem_nil, or_false] at ht
    rcases ht with ht | ht | ht <;> rw [ht] <;> decide
  intro c hc
  exact isAlpha_of_toLower (List.all_eq_true.mp hletters _ (List.mem_map_of_mem hc))

theorem IsNumber.all {t : Text} (ht : IsNumber t) : t.all numberChar = true := by
  cases ht with
  | decimal hsign hdecimal => rw [List.all_append, hsign.all, hdecimal.all, Bool.true_and]
  | named hsign hname =>
    rw [List.all_append, hsign.all, Bool.true_and, List.all_eq_true]
    intro c hc
    simp [numberChar, Char.isAlphanum, isAlpha_of_numberName hname c hc]

theorem IsNumber.ne_nil {t : Text} (ht : IsNumber t) : t ≠ [] := by
  cases ht with
  | decimal _ hdecimal =>
    obtain ⟨c, u, rfl, -⟩ := hdecimal.exists_cons
    simp
  | @named sign name _ hname =>
    have hne : name ≠ [] := by
      rintro rfl
      revert hname
      decide
    simp [hne]

theorem IsDigits.count_point {t : Text} (ht : IsDigits t) : t.count '.' = 0 := by
  rw [List.count_eq_zero]
  intro hmem
  cases ht '.' hmem

theorem IsSign.count_point {t : Text} (ht : IsSign t) : t.count '.' = 0 := by
  cases ht <;> rfl

theorem IsExponent.count_point {t : Text} (ht : IsExponent t) : t.count '.' = 0 := by
  cases ht with
  | none => rfl
  | some he hsign _ hdigits =>
    rw [List.count_cons, List.count_append, hsign.count_point, hdigits.count_point]
    rcases he with rfl | rfl <;> rfl

/-- At most one decimal point. -/
theorem IsNumber.count_point {t : Text} (ht : IsNumber t) : t.count '.' ≤ 1 := by
  cases ht with
  | decimal hsign hdecimal =>
    rw [List.count_append, hsign.count_point]
    cases hdecimal with
    | whole _ hdigits hexponent =>
      rw [List.count_append, hdigits.count_point, hexponent.count_point]
      decide
    | point _ hdigits hfraction hexponent =>
      rw [List.count_append, List.count_cons_self, List.count_append, hdigits.count_point,
        hfraction.count_point, hexponent.count_point]
  | named hsign hname =>
    rw [List.count_append, hsign.count_point, List.count_eq_zero.mpr]
    · decide
    · intro hmem
      cases isAlpha_of_numberName hname '.' hmem

theorem not_point_last {t a w : Text} (hw : w.count '.' = 0) (hne : w ≠ [])
    (h : t ++ ['.'] = a ++ w) : False := by
  have hlast := congrArg List.getLast? h
  rw [List.getLast?_append_of_ne_nil _ hne, List.getLast?_concat] at hlast
  exact List.count_eq_zero.mp hw (List.mem_of_getLast? hlast.symm)

/-- A number may end with its point. -/
theorem IsNumber.of_point {t : Text} (ht : IsNumber (t ++ ['.'])) : IsNumber t := by
  generalize hu : t ++ ['.'] = u at ht
  cases ht with
  | @named sign name hsign hname =>
    have hne : name ≠ [] := by
      rintro rfl
      revert hname
      decide
    have hpoint : name.count '.' = 0 :=
      List.count_eq_zero.mpr fun hmem => by cases isAlpha_of_numberName hname '.' hmem
    exact (not_point_last hpoint hne hu).elim
  | decimal hsign hdecimal =>
    cases hdecimal with
    | @whole digits exponent hne hdigits hexponent =>
      have hpoint : (digits ++ exponent).count '.' = 0 := by
        rw [List.count_append, hdigits.count_point, hexponent.count_point]
      exact (not_point_last hpoint (List.append_ne_nil_of_left_ne_nil hne _) hu).elim
    | @point digits fraction exponent hne hdigits hfraction hexponent =>
      have hsplit : ∀ sign : Text, sign ++ (digits ++ '.' :: (fraction ++ exponent)) =
          sign ++ digits ++ ['.'] ++ (fraction ++ exponent) := fun sign => by simp
      rw [hsplit] at hu
      by_cases hnil : fraction ++ exponent = []
      · rw [hnil, List.append_nil] at hu
        rw [(List.append_eq_nil_iff.mp hnil).1, List.append_nil] at hne
        rw [List.append_cancel_right hu, ← List.append_nil digits]
        exact .decimal hsign (.whole hne hdigits .none)
      · have hpoint : (fraction ++ exponent).count '.' = 0 := by
          rw [List.count_append, hfraction.count_point, hexponent.count_point]
        exact (not_point_last hpoint hnil hu).elim

section Operands

variable {α : Type} [HostDecimal α]

theorem isOk_parseNum {s : Text} :
    (parseNum s : Except String α).isOk = true ↔ IsNumber (trim s) := by
  rw [← isSome_parseF64 (α := α), parseNum]
  cases (parseF64 (trim s) : Option α) <;> simp [Except.isOk, Except.toBool]

theorem isOk_parseOperand {s : Text} :
    (parseOperand s : Except String (Operand α)).isOk = true ↔ IsOperand (trim s) := by
  rw [IsOperand, ← isSome_parseF64 (α := α)]
  simp only [parseOperand]
  by_cases htrue : trim s = "true".toList
  · rw [if_pos htrue, htrue]
    exact iff_of_true rfl (.inr rfl)
  by_cases hfalse : trim s = "false".toList
  · rw [if_neg htrue, if_pos hfalse, hfalse]
    exact iff_of_true rfl (.inr rfl)
  rw [if_neg htrue, if_neg hfalse]
  cases hnumber : (parseF64 (trim s) : Option α) with
  | some n => exact iff_of_true rfl (.inl rfl)
  | none =>
    by_cases hident : isIdent (trim s) = true
    · rw [if_pos hident]
      exact iff_of_true rfl (.inr hident)
    · rw [if_neg hident]
      exact iff_of_false Bool.false_ne_true (not_or.mpr ⟨Bool.false_ne_true, hident⟩)

theorem IsOperand.ne_nil {t : Text} (ht : IsOperand t) : t ≠ [] := by
  rintro rfl
  rcases ht with hnumber | hident
  · exact hnumber.ne_nil rfl
  · cases hident

theorem IsRange.ne_nil {t : Text} (ht : IsRange t) : t ≠ [] := by
  cases ht with
  | exclusive => simp
  | inclusive => simp

theorem PointedRange.isRange {t : Text} (ht : PointedRange t) : IsRange t := by
  obtain ⟨lo, hi, rfl, hlo, hhi, -⟩ := ht
  rw [List.append_cons]
  exact .exclusive hlo hhi

theorem splitOnce_points {lo hi : Text} (hlo : lo.count '.' ≤ 1) (hlast : lo.getLast? ≠ some '.') :
    splitOnce "..".toList (lo ++ "..".toList ++ hi) = some (lo, hi) := by
  apply splitOnce_of_first (by decide)
  rintro x z y rfl hne hz
  match z with
  | [] => exact hne rfl
  | [c] =>
    cases hz
    rw [List.getLast?_concat] at hlast
    exact hlast rfl
  | c :: d :: z =>
    have hpoints : '.' :: '.' :: y = c :: d :: (z ++ ("..".toList ++ hi)) := hz
    obtain ⟨rfl, hsecond⟩ := List.cons_eq_cons.mp hpoints
    obtain ⟨rfl, -⟩ := List.cons_eq_cons.mp hsecond
    rw [List.count_append, List.count_cons_self, List.count_cons_self] at hlo
    omega

theorem isOk_ends {lo hi : Text} (inclusive : Bool) :
    (do let lo ← parseNum lo
        let hi ← parseNum hi
        pure (lo, hi, inclusive) : Except String (α × α × Bool)).isOk = true ↔
      IsNumber (trim lo) ∧ IsNumber (trim hi) := by
  rw [← isOk_parseNum (α := α), ← isOk_parseNum (α := α)]
  cases (parseNum lo : Except String α) <;> cases (parseNum hi : Except String α) <;>
    simp [Except.isOk, Except.toBool, bind, Except.bind, pure, Except.pure]

theorem IsNumber.solid {t : Text} (ht : IsNumber t) : Solid t := by
  intro c hc
  have hchar := List.all_eq_true.mp ht.all c hc
  simp only [numberChar, Char.isAlphanum, Bool.or_eq_true, beq_iff_eq] at hchar
  rcases hchar with (((hchar | hchar) | rfl) | rfl) | rfl
  · exact not_white_alpha hchar
  · exact not_white_digit hchar
  · rfl
  · rfl
  · rfl

theorem not_mem_of_number {c : Char} (hc : isWhitespace c = false) (hchar : numberChar c = false)
    {t : Text} (ht : IsNumber (trim t)) : c ∉ t := by
  rw [← List.count_eq_zero, ← count_trim t hc, List.count_eq_zero]
  intro hmem
  rw [List.all_eq_true.mp ht.all c hmem] at hchar
  cases hchar

theorem count_of_number {t : Text} (ht : IsNumber (trim t)) : t.count '.' ≤ 1 := by
  rw [← count_trim t (by decide)]
  exact ht.count_point

theorem isNumber_of_concat {t : Text} (ht : IsNumber (trim (t ++ ['.']))) : IsNumber (trim t) := by
  rw [trim_concat_solid t (by decide)] at ht
  have hnumber := ht.of_point
  rwa [trim, hnumber.solid.trimEnd_eq]

/-- A lower end with its point in front of `..`. -/
theorem splitOnce_pointed {lo : Text} (hlo : IsNumber (trim (lo ++ ['.']))) (hi : Text) :
    splitOnce "..".toList (lo ++ '.' :: "..".toList ++ hi) = some (lo, '.' :: hi) := by
  have hcount := count_of_number hlo
  rw [List.count_append, List.count_singleton_self] at hcount
  have hnone : lo.count '.' = 0 := by omega
  have hsplit := @splitOnce_points lo ('.' :: hi) (by omega) fun hlast =>
    List.count_eq_zero.mp hnone (List.mem_of_getLast? hlast)
  rw [← hsplit]
  simp

theorem splitOnce_inclusive_none {t : Text} (ht : '=' ∉ t) : splitOnce "..=".toList t = none := by
  rw [Option.eq_none_iff_forall_ne_some]
  rintro ⟨a, b⟩ hsplit
  apply ht
  rw [append_of_splitOnce hsplit]
  simp

theorem splitOnce_inclusive {lo hi : Text} (hlo : '=' ∉ lo) :
    splitOnce "..=".toList (lo ++ "..=".toList ++ hi) = some (lo, hi) := by
  apply splitOnce_of_first (by decide)
  rintro x z y rfl hne hz
  have hpoints : '.' :: '.' :: '=' :: y = z ++ '.' :: '.' :: '=' :: hi := hz
  match z with
  | [] => exact hne rfl
  | [_] => simp at hpoints
  | [_, _] => simp at hpoints
  | c :: d :: e :: z =>
    simp only [List.cons_append, List.cons.injEq] at hpoints
    obtain ⟨-, -, rfl, -⟩ := hpoints
    simp at hlo

/-- The parser takes a range at its first `..`. -/
theorem isOk_parseRange {s : Text} :
    (parseRange s : Except String (α × α × Bool)).isOk = true ↔
      IsRange (trim s) ∧ ¬PointedRange (trim s) := by
  have hequals : ∀ {t : Text}, IsNumber (trim t) → '=' ∉ t :=
    fun ht => not_mem_of_number (by decide) (by decide) ht
  have hnone : ∀ {lo hi op : Text}, IsNumber (trim lo) → IsNumber (trim hi) → '=' ∉ op →
      splitOnce "..=".toList (lo ++ op ++ hi) = none := by
    intro lo hi op hlo hhi hop
    apply splitOnce_inclusive_none
    simp only [List.mem_append, not_or]
    exact ⟨⟨hequals hlo, hop⟩, hequals hhi⟩
  simp only [parseRange]
  generalize trim s = t
  constructor
  · intro h
    cases hinclusive : splitOnce "..=".toList t with
    | some x =>
      obtain ⟨lo, hi⟩ := x
      rw [hinclusive] at h
      obtain ⟨hlo, hhi⟩ := (isOk_ends true).mp h
      refine ⟨append_of_splitOnce hinclusive ▸ .inclusive hlo hhi, ?_⟩
      rintro ⟨lo', hi', rfl, hlo', hhi', -⟩
      have hpointed := @hnone (lo' ++ ['.']) hi' "..".toList hlo' hhi' (by decide)
      rw [List.append_assoc lo', List.singleton_append, hinclusive] at hpointed
      cases hpointed
    | none =>
      rw [hinclusive] at h
      cases hexclusive : splitOnce "..".toList t with
      | none =>
        rw [hexclusive] at h
        cases h
      | some x =>
        obtain ⟨lo, hi⟩ := x
        rw [hexclusive] at h
        obtain ⟨hlo, hhi⟩ := (isOk_ends false).mp h
        refine ⟨append_of_splitOnce hexclusive ▸ .exclusive hlo hhi, ?_⟩
        rintro ⟨lo', hi', rfl, hlo', -, hmore⟩
        rw [splitOnce_pointed hlo' hi'] at hexclusive
        cases hexclusive
        exact hmore hhi
  · rintro ⟨hrange, hpointed⟩
    cases hrange with
    | @inclusive lo hi hlo hhi =>
      rw [splitOnce_inclusive (hequals hlo)]
      exact (isOk_ends true).mpr ⟨hlo, hhi⟩
    | @exclusive lo hi hlo hhi =>
      rw [hnone hlo hhi (by decide)]
      by_cases hlast : lo.getLast? = some '.'
      · obtain ⟨lo, rfl⟩ := List.getLast?_eq_some_iff.mp hlast
        rw [List.append_assoc lo, List.singleton_append, splitOnce_pointed hlo hi]
        refine (isOk_ends false).mpr ⟨isNumber_of_concat hlo, ?_⟩
        by_contra hmore
        apply hpointed
        refine ⟨lo, hi, ?_, hlo, hhi, hmore⟩
        rw [List.append_assoc lo, List.singleton_append]
      · rw [splitOnce_points (count_of_number hlo) hlast]
        exact (isOk_ends false).mpr ⟨hlo, hhi⟩

end Operands

theorem not_alpha_of_digit {c : Char} (hc : c.isDigit = true) : ¬c.isAlpha = true := by
  simp only [Char.isDigit, Char.isAlpha, Char.isUpper, Char.isLower, Bool.and_eq_true,
    Bool.or_eq_true, decide_eq_true_eq, ge_iff_le, UInt32.le_iff_toNat_le] at hc ⊢
  simp at hc ⊢
  omega

/-- A name is no decimal literal. -/
theorem isNumber_of_isIdent {name : Text} (hname : isIdent name = true) :
    IsNumber name ↔ name.map Char.toLower ∈ numberNames := by
  constructor
  · intro hnumber
    cases hnumber with
    | @decimal sign t hsign hdecimal =>
      obtain ⟨c, u, rfl, hc⟩ := hdecimal.exists_cons
      cases hsign with
      | plus => cases hname
      | minus => cases hname
      | none =>
        rw [List.nil_append, isIdent, Bool.and_eq_true, Bool.or_eq_true, beq_iff_eq] at hname
        rcases hc with hc | rfl
        · rcases hname.1 with halpha | rfl
          · exact absurd halpha (not_alpha_of_digit hc)
          · cases hc
        · rcases hname.1 with halpha | hpoint
          · cases halpha
          · cases hpoint
    | named hsign hlower =>
      cases hsign with
      | none => exact hlower
      | plus => cases hname
      | minus => cases hname
  · intro hlower
    rw [← List.nil_append name]
    exact .named .none hlower

section Names

variable {α : Type} [HostDecimal α] [ScriptHost]

theorem isIdent_of_parseStmt {line line' : ℕ} {src : Text} {text name : String} {call : Call α}
    (hlet : parseStmt line src = .ok (.letStmt line' text name call)) :
    isIdent name.toList = true := by
  rw [parseStmt] at hlet
  split at hlet
  · obtain ⟨duration, -, hsleep⟩ := bind_eq_ok hlet
    cases hsleep
  · split at hlet
    · rw [parseLet] at hlet
      split at hlet
      · cases hlet
      · dsimp only at hlet
        split at hlet
        next hident =>
          obtain ⟨call, -, hstmt⟩ := bind_eq_ok hlet
          cases hstmt
          rwa [String.toList_ofList]
        · cases hlet
    · rw [parseCheck] at hlet
      split at hlet
      · cases hlet
      · obtain ⟨call, -, hrest⟩ := bind_eq_ok hlet
        obtain ⟨verb, -, hstmt⟩ := bind_eq_ok hrest
        cases hstmt

/-- A name that was bound is a variable, but for those that spell a literal. -/
theorem bound_name_iff {line line' : ℕ} {src : Text} {text name : String} {call : Call α}
    (hlet : parseStmt line src = .ok (.letStmt line' text name call)) :
    (parseOperand name.toList : Except String (Operand α)) = .ok (.var name) ↔
      name ≠ "true" ∧ name ≠ "false" ∧ name.toList.map Char.toLower ∉ numberNames := by
  have hident := isIdent_of_parseStmt hlet
  have hnumber := isSome_parseF64 (α := α) (t := name.toList)
  rw [isNumber_of_isIdent hident] at hnumber
  have heq : ∀ literal : String, name.toList = literal.toList ↔ name = literal :=
    fun _ => String.toList_inj
  simp only [parseOperand, (solid_of_isIdent hident).trim_eq, heq]
  by_cases htrue : name = "true"
  · rw [if_pos htrue]
    exact iff_of_false (by rintro ⟨⟩) fun h => h.1 htrue
  · by_cases hfalse : name = "false"
    · rw [if_neg htrue, if_pos hfalse]
      exact iff_of_false (by rintro ⟨⟩) fun h => h.2.1 hfalse
    · rw [if_neg htrue, if_neg hfalse]
      cases hparse : (parseF64 name.toList : Option α) with
      | some n =>
        rw [hparse] at hnumber
        exact iff_of_false (by rintro ⟨⟩) fun h => h.2.2 (hnumber.mp rfl)
      | none =>
        rw [hparse] at hnumber
        simp only [hident, if_true, String.ofList_toList]
        exact iff_of_true trivial ⟨htrue, hfalse, fun h => Bool.false_ne_true (hnumber.mpr h)⟩

end Names

theorem bound_name_iff_x :
    (parseStmt 1 "let x = thermal.get_rpm".toList : Except String (Stmt Float)) =
        .ok (.letStmt 1 "let x = thermal.get_rpm" "x" ⟨.thermal, .getRpm, []⟩) ∧
      ((parseOperand "x".toList : Except String (Operand Float)) = .ok (.var "x") ↔
        "x" ≠ "true" ∧ "x" ≠ "false" ∧ "x".toList.map Char.toLower ∉ numberNames) :=
  ⟨rfl, bound_name_iff (α := Float) (show parseStmt 1 "let x = thermal.get_rpm".toList = _ from rfl)⟩

/-- A bound value that no operand can name. -/
theorem let_inf_not_variable :
    (parseStmt 1 "let inf = thermal.get_rpm".toList : Except String (Stmt Float)) =
        .ok (.letStmt 1 "let inf = thermal.get_rpm" "inf" ⟨.thermal, .getRpm, []⟩) ∧
      (parseOperand "inf".toList : Except String (Operand Float)) =
        .ok (.num (HostDecimal.infinity false)) ∧
      (parseOperand "inf".toList : Except String (Operand Float)) ≠ .ok (.var "inf") ∧
      (parseStmt 1 "let true = thermal.get_rpm".toList : Except String (Stmt Float)) =
        .ok (.letStmt 1 "let true = thermal.get_rpm" "true" ⟨.thermal, .getRpm, []⟩) ∧
      (parseOperand "true".toList : Except String (Operand Float)) = .ok (.bool true) ∧
      (parseOperand "true".toList : Except String (Operand Float)) ≠ .ok (.var "true") := by
  have hinf : (parseOperand "inf".toList : Except String (Operand Float)) =
      .ok (.num (HostDecimal.infinity false)) := rfl
  have htrue : (parseOperand "true".toList : Except String (Operand Float)) = .ok (.bool true) := rfl
  refine ⟨rfl, hinf, ?_, rfl, htrue, ?_⟩
  · rw [hinf]
    nofun
  · rw [htrue]
    nofun

end EcScriptOperands
