import Mathlib.Data.List.DropRight

/-! # Texts: trimming, splitting, and whitespace runs

A text is a list of characters. `squeeze` makes every run of whitespace a single space; the
operations on texts commute with it. -/
namespace CharText

abbrev Text := List Char

def isWhitespace (c : Char) : Bool :=
  let n := c.toNat
  (9 ≤ n && n ≤ 13) || n == 0x20 || n == 0x85 || n == 0xA0 || n == 0x1680 ||
    (0x2000 ≤ n && n ≤ 0x200A) || n == 0x2028 || n == 0x2029 || n == 0x202F || n == 0x205F ||
    n == 0x3000

def trimStart (t : Text) : Text := t.dropWhile isWhitespace

def trimEnd (t : Text) : Text := t.rdropWhile isWhitespace

def trim (t : Text) : Text := trimEnd (trimStart t)

def stripPrefix (pat t : Text) : Option Text :=
  if pat.isPrefixOf t then some (t.drop pat.length) else none

def stripSuffix (pat t : Text) : Option Text :=
  if pat.isSuffixOf t then some (t.take (t.length - pat.length)) else none

def splitOnce (pat : Text) : Text → Option (Text × Text)
  | [] => none
  | c :: t =>
    match stripPrefix pat (c :: t) with
    | some u => some ([], u)
    | none => (splitOnce pat t).map fun x => (c :: x.1, x.2)

def rsplitOnce (sep : Char) : Text → Option (Text × Text)
  | [] => none
  | c :: t =>
    match rsplitOnce sep t with
    | some (a, b) => some (c :: a, b)
    | none => if c = sep then some ([], t) else none

def splitPieces {β : Type} (sep : β → Bool) : List β → List β × List (List β)
  | [] => ([], [])
  | x :: t =>
    let y := splitPieces sep t
    if sep x then ([], y.1 :: y.2) else (x :: y.1, y.2)

def split (sep : Char) (t : Text) : List Text :=
  (splitPieces (· == sep) t).1 :: (splitPieces (· == sep) t).2

def splitWhitespaceOnce (t : Text) : Option (Text × Text) :=
  match t.dropWhile fun c => !isWhitespace c with
  | [] => none
  | _ :: rest => some (t.takeWhile fun c => !isWhitespace c, rest)

def stripCarriageReturn (line : Text) : Text := (stripSuffix ['\r'] line).getD line

def lines (t : Text) : List Text :=
  let pieces := split '\n' t
  pieces.dropLast.map stripCarriageReturn ++ pieces.getLast?.toList.filter (· ≠ [])

/-- One space in front, where there is none yet. -/
def gap : Text → Text
  | ' ' :: t => ' ' :: t
  | t => ' ' :: t

def squeeze : Text → Text
  | [] => []
  | c :: t => if isWhitespace c then gap (squeeze t) else c :: squeeze t

@[simp] theorem isWhitespace_space : isWhitespace ' ' = true := rfl

theorem ne_space {c : Char} (hc : isWhitespace c = false) : c ≠ ' ' := by
  rintro rfl
  cases hc

@[simp] theorem gap_nil : gap [] = [' '] := rfl

@[simp] theorem gap_space (t : Text) : gap (' ' :: t) = ' ' :: t := rfl

theorem gap_cons {c : Char} (hc : c ≠ ' ') (t : Text) : gap (c :: t) = ' ' :: c :: t := by
  unfold gap
  split
  next heq => exact absurd (List.cons_eq_cons.mp heq).1 hc
  · rfl

theorem gap_eq_cons (t : Text) : ∃ m, gap t = ' ' :: m := by
  unfold gap
  split
  · exact ⟨_, rfl⟩
  · exact ⟨_, rfl⟩

theorem gap_ne_nil (t : Text) : gap t ≠ [] := by
  obtain ⟨m, hm⟩ := gap_eq_cons t
  rw [hm]
  exact List.cons_ne_nil _ _

theorem gap_gap (t : Text) : gap (gap t) = gap t := by
  match t with
  | [] => rfl
  | c :: t =>
    by_cases hc : c = ' '
    · rw [hc, gap_space, gap_space]
    · rw [gap_cons hc, gap_space]

@[simp] theorem squeeze_nil : squeeze [] = [] := rfl

theorem squeeze_white {c : Char} (hc : isWhitespace c = true) (t : Text) :
    squeeze (c :: t) = gap (squeeze t) := by
  rw [squeeze, if_pos hc]

theorem squeeze_solid {c : Char} (hc : isWhitespace c = false) (t : Text) :
    squeeze (c :: t) = c :: squeeze t := by
  rw [squeeze, if_neg (by rw [hc]; decide)]

/-- A squeezed text starts with a space or with a character that is not whitespace. -/
theorem squeeze_cases (t : Text) :
    squeeze t = [] ∨ (∃ m, squeeze t = ' ' :: m) ∨
      ∃ c m, isWhitespace c = false ∧ squeeze t = c :: m := by
  match t with
  | [] => exact .inl rfl
  | c :: t =>
    cases hc : isWhitespace c with
    | true =>
      rw [squeeze_white hc]
      exact .inr (.inl (gap_eq_cons (squeeze t)))
    | false => exact .inr (.inr ⟨c, squeeze t, hc, squeeze_solid hc t⟩)

theorem squeeze_eq_nil {t : Text} : squeeze t = [] ↔ t = [] := by
  match t with
  | [] => simp
  | c :: t =>
    cases hc : isWhitespace c with
    | true => simp [squeeze_white hc, gap_ne_nil]
    | false => simp [squeeze_solid hc]

/-- Text without whitespace. -/
def Solid (t : Text) : Prop := ∀ c ∈ t, isWhitespace c = false

instance (t : Text) : Decidable (Solid t) := List.decidableBAll _ t

theorem solid_cons {c : Char} {t : Text} :
    Solid (c :: t) ↔ isWhitespace c = false ∧ Solid t := List.forall_mem_cons

theorem Solid.squeeze_eq {t : Text} (ht : Solid t) : squeeze t = t := by
  induction t with
  | nil => rfl
  | cons c t ih =>
    obtain ⟨hc, htail⟩ := solid_cons.mp ht
    rw [squeeze_solid hc, ih htail]

theorem not_solid_gap (t : Text) : ¬Solid (gap t) := by
  obtain ⟨m, hm⟩ := gap_eq_cons t
  rw [hm]
  exact fun h => absurd (solid_cons.mp h).1 (by decide)

theorem solid_squeeze {t : Text} : Solid (squeeze t) ↔ Solid t := by
  induction t with
  | nil => exact Iff.rfl
  | cons c t ih =>
    cases hc : isWhitespace c with
    | true =>
      rw [squeeze_white hc, solid_cons, hc]
      simp [not_solid_gap]
    | false => rw [squeeze_solid hc, solid_cons, solid_cons, ih]

/-- A text without whitespace is told from any other by the squeezed text. -/
theorem squeeze_eq_iff {t w : Text} (hw : Solid w) : squeeze t = w ↔ t = w := by
  constructor
  · rintro rfl
    exact (solid_squeeze.mp hw).squeeze_eq.symm
  · rintro rfl
    exact hw.squeeze_eq

theorem Solid.squeeze_append {a : Text} (ha : Solid a) (b : Text) :
    squeeze (a ++ b) = a ++ squeeze b := by
  induction a with
  | nil => rfl
  | cons c a ih =>
    obtain ⟨hc, htail⟩ := solid_cons.mp ha
    rw [List.cons_append, squeeze_solid hc, ih htail, List.cons_append]

theorem squeeze_append_solid (a : Text) {c : Char} (hc : isWhitespace c = false) (b : Text) :
    squeeze (a ++ c :: b) = squeeze a ++ c :: squeeze b := by
  have hgap : ∀ m : Text, gap (m ++ c :: squeeze b) = gap m ++ c :: squeeze b := by
    intro m
    match m with
    | [] => exact gap_cons (ne_space hc) _
    | d :: m =>
      by_cases hd : d = ' '
      · rw [hd]
        rfl
      · rw [List.cons_append, gap_cons hd, gap_cons hd]
        rfl
  induction a with
  | nil => exact squeeze_solid hc b
  | cons d a ih =>
    rw [List.cons_append]
    cases hd : isWhitespace d with
    | true => rw [squeeze_white hd, squeeze_white hd, ih, hgap]
    | false => rw [squeeze_solid hd, squeeze_solid hd, ih, List.cons_append]

/-- A character other than whitespace keeps its place. -/
theorem squeeze_split {t x y : Text} {c : Char} (hc : isWhitespace c = false)
    (hsplit : squeeze t = x ++ c :: y) : ∃ a b, t = a ++ c :: b ∧ squeeze a = x ∧ squeeze b = y := by
  induction t generalizing x with
  | nil => simp at hsplit
  | cons d t ih =>
    cases hd : isWhitespace d with
    | true =>
      rw [squeeze_white hd] at hsplit
      rcases squeeze_cases t with ht | ⟨m, ht⟩ | ⟨e, m, he, ht⟩
      · rw [ht] at hsplit
        rcases List.cons_eq_append_iff.mp hsplit with ⟨-, hx⟩ | ⟨x', -, hx⟩
        · exact absurd (List.cons_eq_cons.mp hx).1 (ne_space hc)
        · simp at hx
      · rw [ht, gap_space, ← ht] at hsplit
        obtain ⟨a, b, rfl, rfl, rfl⟩ := ih hsplit
        refine ⟨d :: a, b, rfl, ?_, rfl⟩
        rw [squeeze_white hd]
        rw [ht] at hsplit
        rcases List.cons_eq_append_iff.mp hsplit with ⟨-, hx⟩ | ⟨x', hx, -⟩
        · exact absurd (List.cons_eq_cons.mp hx).1 (ne_space hc)
        · rw [hx, gap_space]
      · rw [ht, gap_cons (ne_space he), ← ht] at hsplit
        rcases List.cons_eq_append_iff.mp hsplit with ⟨-, hx⟩ | ⟨x', rfl, hx⟩
        · exact absurd (List.cons_eq_cons.mp hx).1 (ne_space hc)
        · obtain ⟨a, b, rfl, rfl, rfl⟩ := ih hx
          refine ⟨d :: a, b, rfl, ?_, rfl⟩
          rw [squeeze_white hd]
          match a with
          | [] => rfl
          | f :: a =>
            have hf : isWhitespace f = false := by
              by_contra hf
              rw [Bool.not_eq_false] at hf
              obtain ⟨m', hm'⟩ := gap_eq_cons (squeeze (a ++ c :: b))
              rw [List.cons_append, squeeze_white hf, hm'] at ht
              exact ne_space he (List.cons_eq_cons.mp ht).1.symm
            rw [squeeze_solid hf, gap_cons (ne_space hf)]
    | false =>
      rw [squeeze_solid hd] at hsplit
      rcases List.cons_eq_append_iff.mp hsplit with ⟨rfl, hx⟩ | ⟨x', rfl, hx⟩
      · obtain ⟨rfl, rfl⟩ := List.cons_eq_cons.mp hx
        exact ⟨[], t, rfl, rfl, rfl⟩
      · obtain ⟨a, b, rfl, rfl, rfl⟩ := ih hx
        exact ⟨d :: a, b, rfl, squeeze_solid hd a, rfl⟩

theorem trimEnd_cons (c : Char) (t : Text) :
    trimEnd (c :: t) = if trimEnd t = [] ∧ isWhitespace c = true then [] else c :: trimEnd t := by
  have hnil : trimEnd t = [] ↔ (t.reverse.dropWhile isWhitespace).isEmpty := by
    rw [trimEnd, List.rdropWhile, List.reverse_eq_nil_iff, List.isEmpty_iff]
  rw [trimEnd, List.rdropWhile, List.reverse_cons, List.dropWhile_append]
  by_cases ht : trimEnd t = []
  · rw [if_pos (hnil.mp ht), ht]
    cases hc : isWhitespace c <;> simp [List.dropWhile, hc]
  · rw [if_neg (fun h => ht (hnil.mpr h)), if_neg (fun h => ht h.1)]
    simp [trimEnd, List.rdropWhile]

theorem trimStart_white {c : Char} (hc : isWhitespace c = true) (t : Text) :
    trimStart (c :: t) = trimStart t := List.dropWhile_cons_of_pos hc

theorem trimStart_solid {c : Char} (hc : isWhitespace c = false) (t : Text) :
    trimStart (c :: t) = c :: t := List.dropWhile_cons_of_neg (by rw [hc]; decide)

theorem trimStart_gap (t : Text) : trimStart (gap t) = trimStart t := by
  match t with
  | [] => rfl
  | c :: t =>
    by_cases hc : c = ' '
    · rw [hc, gap_space]
    · rw [gap_cons hc, trimStart_white isWhitespace_space]

theorem squeeze_trimStart (t : Text) : squeeze (trimStart t) = trimStart (squeeze t) := by
  induction t with
  | nil => rfl
  | cons c t ih =>
    cases hc : isWhitespace c with
    | true => rw [trimStart_white hc, squeeze_white hc, trimStart_gap, ih]
    | false => rw [trimStart_solid hc, squeeze_solid hc, trimStart_solid hc]

theorem trimEnd_solid {c : Char} (hc : isWhitespace c = false) (t : Text) :
    trimEnd (c :: t) = c :: trimEnd t := by
  rw [trimEnd_cons, hc, if_neg (by simp)]

theorem trimEnd_gap (t : Text) :
    trimEnd (gap t) = if trimEnd t = [] then [] else gap (trimEnd t) := by
  match t with
  | [] => rfl
  | c :: t =>
    by_cases hc : c = ' '
    · rw [hc, gap_space, trimEnd_cons]
      split
      · rfl
      · rw [if_neg (List.cons_ne_nil _ _), gap_space]
    · have hspace : trimEnd (' ' :: c :: t) =
          if trimEnd (c :: t) = [] then [] else ' ' :: trimEnd (c :: t) := by
        rw [trimEnd_cons]
        simp
      rw [gap_cons hc, hspace]
      split
      · rfl
      next hne =>
        rw [trimEnd_cons] at hne ⊢
        split at hne
        · exact absurd rfl hne
        next hkeep => rw [if_neg hkeep, gap_cons hc]

theorem squeeze_trimEnd (t : Text) : squeeze (trimEnd t) = trimEnd (squeeze t) := by
  induction t with
  | nil => rfl
  | cons c t ih =>
    cases hc : isWhitespace c with
    | true =>
      rw [squeeze_white hc, trimEnd_gap, ← ih, trimEnd_cons, hc]
      by_cases ht : trimEnd t = []
      · simp [ht]
      · rw [if_neg (fun h => ht h.1), squeeze_white hc, if_neg (squeeze_eq_nil.not.mpr ht)]
    | false => rw [squeeze_solid hc, trimEnd_solid hc, trimEnd_solid hc, squeeze_solid hc, ih]

theorem squeeze_trim (t : Text) : squeeze (trim t) = trim (squeeze t) := by
  rw [trim, trim, squeeze_trimEnd, squeeze_trimStart]

theorem trim_white {c : Char} (hc : isWhitespace c = true) (t : Text) : trim (c :: t) = trim t := by
  rw [trim, trim, trimStart_white hc]

theorem stripPrefix_eq_some {pat t u : Text} : stripPrefix pat t = some u ↔ t = pat ++ u := by
  rw [stripPrefix]
  constructor
  · intro h
    split at h
    next hpre =>
      obtain ⟨v, rfl⟩ := List.isPrefixOf_iff_prefix.mp hpre
      rw [List.drop_left, Option.some.injEq] at h
      rw [h]
    · cases h
  · rintro rfl
    rw [if_pos (List.isPrefixOf_iff_prefix.mpr (List.prefix_append _ _)), List.drop_left]

theorem stripSuffix_eq_some {pat t u : Text} : stripSuffix pat t = some u ↔ t = u ++ pat := by
  rw [stripSuffix]
  constructor
  · intro h
    split at h
    next hsuf =>
      obtain ⟨v, rfl⟩ := List.isSuffixOf_iff_suffix.mp hsuf
      rw [List.length_append, Nat.add_sub_cancel, List.take_left, Option.some.injEq] at h
      rw [h]
    · cases h
  · rintro rfl
    rw [if_pos (List.isSuffixOf_iff_suffix.mpr (List.suffix_append _ _)), List.length_append,
      Nat.add_sub_cancel, List.take_left]

/-- A pattern without whitespace is a prefix of the squeezed text as of the text. -/
theorem stripPrefix_squeeze (pat : Text) (hpat : Solid pat) (t : Text) :
    stripPrefix pat (squeeze t) = (stripPrefix pat t).map squeeze := by
  induction pat generalizing t with
  | nil => simp [stripPrefix]
  | cons p pat ih =>
    obtain ⟨hp, htail⟩ := solid_cons.mp hpat
    have hcons : ∀ (c : Char) (u : Text), stripPrefix (p :: pat) (c :: u) =
        if p = c then stripPrefix pat u else none := by
      intro c u
      by_cases hc : p = c
      · simp [stripPrefix, hc]
      · simp [stripPrefix, hc]
    match t with
    | [] => rfl
    | c :: t =>
      rw [hcons]
      cases hc : isWhitespace c with
      | true =>
        obtain ⟨m, hm⟩ := gap_eq_cons (squeeze t)
        have hpc : p ≠ c := by
          rintro rfl
          rw [hp] at hc
          cases hc
        rw [squeeze_white hc, hm, hcons, if_neg (ne_space hp), if_neg hpc]
        rfl
      | false =>
        rw [squeeze_solid hc, hcons, ih htail]
        split
        · rfl
        · rfl

theorem squeeze_append_solid_right {pat : Text} (hpat : Solid pat) (a : Text) :
    squeeze (a ++ pat) = squeeze a ++ pat := by
  match pat with
  | [] => rw [List.append_nil, List.append_nil]
  | p :: pat =>
    obtain ⟨hp, htail⟩ := solid_cons.mp hpat
    rw [squeeze_append_solid a hp, htail.squeeze_eq]

theorem stripSuffix_squeeze (pat : Text) (hpat : Solid pat) (t : Text) :
    stripSuffix pat (squeeze t) = (stripSuffix pat t).map squeeze := by
  cases h : stripSuffix pat t with
  | some u =>
    rw [stripSuffix_eq_some] at h
    rw [h, squeeze_append_solid_right hpat, Option.map_some, stripSuffix_eq_some]
  | none =>
    rw [Option.map_none, Option.eq_none_iff_forall_ne_some]
    intro x hx
    rw [stripSuffix_eq_some] at hx
    match pat with
    | [] =>
      have hsuffix : stripSuffix [] t = some t := stripSuffix_eq_some.mpr (List.append_nil t).symm
      rw [hsuffix] at h
      cases h
    | p :: pat =>
      obtain ⟨hp, htail⟩ := solid_cons.mp hpat
      obtain ⟨a, b, rfl, -, hb⟩ := squeeze_split hp hx
      rw [squeeze_eq_iff htail] at hb
      rw [hb, stripSuffix_eq_some.mpr rfl] at h
      cases h

/-- What splitters share: a first piece, to which leading whitespace belongs. -/
structure HeadSplit {σ β : Type} (F : σ → Text → Option (Text × β)) : Prop where
  nil : ∀ s x, F s [] = some x → x.1 = []
  white : ∀ s c t, isWhitespace c = true → F s (c :: t) = (F s t).map fun x => (c :: x.1, x.2)
  head : ∀ s c t x, F s (c :: t) = some x → x.1 = [] ∨ ∃ a, x.1 = c :: a

namespace HeadSplit

variable {σ β : Type} {F : σ → Text → Option (Text × β)}

theorem gap_piece (h : HeadSplit F) (s : σ) (t : Text) :
    F s (gap t) = (F s t).map fun x => (gap x.1, x.2) := by
  match t with
  | [] =>
    rw [gap_nil, h.white s ' ' [] isWhitespace_space]
    cases hx : F s [] with
    | none => rfl
    | some x => rw [Option.map_some, Option.map_some, h.nil s x hx, gap_nil]
  | c :: t =>
    by_cases hc : c = ' '
    · rw [hc, gap_space, h.white s ' ' t isWhitespace_space, Option.map_map]
      rfl
    · rw [gap_cons hc, h.white s ' ' (c :: t) isWhitespace_space]
      cases hx : F s (c :: t) with
      | none => rfl
      | some x =>
        rw [Option.map_some, Option.map_some]
        rcases h.head s c t x hx with ha | ⟨a, ha⟩
        · rw [ha, gap_nil]
        · rw [ha, gap_cons hc]

/-- Splitting commutes with `squeeze` where it does so at every other character. -/
theorem squeeze_pieces (h : HeadSplit F) {g : β → β}
    (hnil : ∀ s x, F s [] = some x → g x.2 = x.2)
    (hsolid : ∀ s c t, isWhitespace c = false →
      (∀ s, F s (squeeze t) = (F s t).map fun x => (squeeze x.1, g x.2)) →
      F s (c :: squeeze t) = (F s (c :: t)).map fun x => (squeeze x.1, g x.2)) (s : σ) (t : Text) :
    F s (squeeze t) = (F s t).map fun x => (squeeze x.1, g x.2) := by
  induction t generalizing s with
  | nil =>
    rw [squeeze_nil]
    cases hx : F s [] with
    | none => rfl
    | some x => rw [Option.map_some, h.nil s x hx, squeeze_nil, hnil s x hx, ← h.nil s x hx]
  | cons c t ih =>
    cases hc : isWhitespace c with
    | true =>
      rw [squeeze_white hc, h.gap_piece, ih, h.white s c t hc, Option.map_map, Option.map_map]
      congr 1
      funext x
      exact Prod.ext (squeeze_white hc x.1).symm rfl
    | false =>
      rw [squeeze_solid hc]
      exact hsolid s c t hc ih

end HeadSplit

theorem stripPrefix_white {p c : Char} (hp : isWhitespace p = false) (hc : isWhitespace c = true)
    (pat t : Text) : stripPrefix (p :: pat) (c :: t) = none := by
  rw [Option.eq_none_iff_forall_ne_some]
  intro u hu
  rw [stripPrefix_eq_some, List.cons_append] at hu
  rw [(List.cons_eq_cons.mp hu).1, hp] at hc
  cases hc

theorem stripPrefix_single (sep c : Char) (t : Text) :
    stripPrefix [sep] (c :: t) = if sep = c then some t else none := by
  by_cases hc : sep = c
  · simp [stripPrefix, hc]
  · simp [stripPrefix, hc]

/-- The separator does not stand in front of its first occurrence. -/
theorem not_mem_of_splitOnce {sep : Char} {t : Text} :
    (splitOnce [sep] t = none → sep ∉ t) ∧
      ∀ a b, splitOnce [sep] t = some (a, b) → sep ∉ a ∧ t = a ++ sep :: b := by
  induction t with
  | nil => exact ⟨fun _ => List.not_mem_nil, nofun⟩
  | cons c t ih =>
    simp only [splitOnce, stripPrefix_single]
    by_cases hc : sep = c
    · subst hc
      rw [if_pos rfl]
      refine ⟨nofun, ?_⟩
      intro a b hab
      cases hab
      exact ⟨List.not_mem_nil, rfl⟩
    · rw [if_neg hc]
      constructor
      · intro hnone
        rw [List.mem_cons, not_or]
        exact ⟨hc, ih.1 (Option.map_eq_none_iff.mp hnone)⟩
      · intro a b hab
        obtain ⟨⟨x, y⟩, hxy, heq⟩ := Option.map_eq_some_iff.mp hab
        obtain ⟨hx, ht⟩ := ih.2 x y hxy
        cases heq
        rw [List.mem_cons, not_or, ht]
        exact ⟨⟨hc, hx⟩, rfl⟩

/-- The first occurrence of the pattern is found. -/
theorem splitOnce_append {pat a b : Text} (hne : pat ≠ [])
    (hfirst : ∀ x y, a ++ pat ++ b = x ++ pat ++ y → a.length ≤ x.length) :
    splitOnce pat (a ++ pat ++ b) = some (a, b) := by
  induction a with
  | nil =>
    obtain ⟨p, pat, rfl⟩ := List.exists_cons_of_ne_nil hne
    have hstrip : stripPrefix (p :: pat) (p :: (pat ++ b)) = some b := stripPrefix_eq_some.mpr rfl
    rw [List.nil_append, List.cons_append, splitOnce, hstrip]
  | cons c a ih =>
    rw [List.cons_append, List.cons_append, splitOnce]
    cases hstrip : stripPrefix pat (c :: (a ++ pat ++ b)) with
    | some u => exact absurd (hfirst [] u (stripPrefix_eq_some.mp hstrip)) (Nat.not_succ_le_zero _)
    | none =>
      dsimp only
      rw [ih fun x y h => Nat.le_of_succ_le_succ (hfirst (c :: x) y (congrArg (c :: ·) h))]
      rfl

/-- No occurrence begins inside the part in front. -/
theorem splitOnce_of_first {pat a b : Text} (hne : pat ≠ [])
    (hfirst : ∀ x z y, a = x ++ z → z ≠ [] → pat ++ y ≠ z ++ (pat ++ b)) :
    splitOnce pat (a ++ pat ++ b) = some (a, b) := by
  apply splitOnce_append hne
  intro x y h
  rw [List.append_assoc, List.append_assoc, List.append_eq_append_iff] at h
  rcases h with ⟨z, rfl, -⟩ | ⟨z, rfl, hz⟩
  · rw [List.length_append]
    exact Nat.le_add_right _ _
  · by_cases hnil : z = []
    · rw [hnil, List.append_nil]
    · exact absurd hz (hfirst x z y rfl hnil)

theorem splitOnce_single {sep : Char} {a : Text} (ha : sep ∉ a) (b : Text) :
    splitOnce [sep] (a ++ sep :: b) = some (a, b) := by
  rw [List.append_cons]
  apply splitOnce_of_first (List.cons_ne_nil _ _)
  intro x z y hsplit hne hz
  obtain ⟨c, z, rfl⟩ := List.exists_cons_of_ne_nil hne
  rw [List.singleton_append, List.cons_append, List.cons_eq_cons] at hz
  rw [hsplit, ← hz.1] at ha
  exact ha (List.mem_append_right x List.mem_cons_self)

theorem append_of_rsplitOnce {sep : Char} {t a b : Text} (h : rsplitOnce sep t = some (a, b)) :
    t = a ++ sep :: b := by
  induction t generalizing a with
  | nil => cases h
  | cons c t ih =>
    simp only [rsplitOnce] at h
    cases hsplit : rsplitOnce sep t with
    | some x =>
      rw [hsplit] at h
      cases h
      rw [ih hsplit]
      rfl
    | none =>
      simp only [hsplit] at h
      split at h
      next hc =>
        cases h
        rw [hc]
        rfl
      · cases h

theorem rsplitOnce_concat (sep : Char) (a : Text) : rsplitOnce sep (a ++ [sep]) = some (a, []) := by
  induction a with
  | nil => simp [rsplitOnce]
  | cons c a ih => rw [List.cons_append, rsplitOnce, ih]

theorem headSplit_splitOnce {p : Char} (hp : isWhitespace p = false) (pat : Text) :
    HeadSplit fun (_ : Unit) => splitOnce (p :: pat) where
  nil _ _ := nofun
  white _ c t hc := by
    simp only [splitOnce, stripPrefix_white hp hc]
  head _ c t x hx := by
    simp only [splitOnce] at hx
    split at hx
    · cases hx
      exact .inl rfl
    · obtain ⟨y, -, rfl⟩ := Option.map_eq_some_iff.mp hx
      exact .inr ⟨y.1, rfl⟩

theorem splitOnce_squeeze (pat : Text) (hpat : Solid pat) (hne : pat ≠ []) (t : Text) :
    splitOnce pat (squeeze t) = (splitOnce pat t).map fun x => (squeeze x.1, squeeze x.2) := by
  obtain ⟨p, tail, rfl⟩ := List.exists_cons_of_ne_nil hne
  apply (headSplit_splitOnce (solid_cons.mp hpat).1 tail).squeeze_pieces nofun _ () t
  intro _ c t hc ih
  have hprefix := stripPrefix_squeeze (p :: tail) hpat (c :: t)
  rw [squeeze_solid hc] at hprefix
  simp only [splitOnce, hprefix]
  cases stripPrefix (p :: tail) (c :: t) with
  | some u => rfl
  | none =>
    simp only [Option.map_none, ih ()]
    rw [Option.map_map, Option.map_map]
    congr 1
    funext x
    exact Prod.ext (squeeze_solid hc x.1).symm rfl

theorem headSplit_rsplitOnce {sep : Char} (hsep : isWhitespace sep = false) :
    HeadSplit fun (_ : Unit) => rsplitOnce sep where
  nil _ _ := nofun
  white _ c t hc := by
    have hne : c ≠ sep := by
      rintro rfl
      rw [hc] at hsep
      cases hsep
    simp only [rsplitOnce]
    cases rsplitOnce sep t with
    | none => simp [hne]
    | some x => rfl
  head _ c t x hx := by
    simp only [rsplitOnce] at hx
    split at hx
    · cases hx
      exact .inr ⟨_, rfl⟩
    · split at hx
      · cases hx
        exact .inl rfl
      · cases hx

theorem rsplitOnce_squeeze (sep : Char) (hsep : isWhitespace sep = false) (t : Text) :
    rsplitOnce sep (squeeze t) = (rsplitOnce sep t).map fun x => (squeeze x.1, squeeze x.2) := by
  apply (headSplit_rsplitOnce hsep).squeeze_pieces nofun _ () t
  intro _ c t hc ih
  simp only [rsplitOnce, ih ()]
  cases rsplitOnce sep t with
  | some x => exact congrArg some (Prod.ext (squeeze_solid hc x.1).symm rfl)
  | none =>
    by_cases hcs : c = sep
    · simp [hcs]
    · simp [hcs]

theorem headSplit_splitPieces {sep : Char → Bool}
    (hsep : ∀ c, isWhitespace c = true → sep c = false) :
    HeadSplit fun (_ : Unit) t => some (splitPieces sep t) where
  nil _ x hx := by
    cases hx
    rfl
  white _ c t hc := by
    simp only [splitPieces, hsep c hc]
    rfl
  head _ c t x hx := by
    cases hx
    simp only [splitPieces]
    split
    · exact .inl rfl
    · exact .inr ⟨_, rfl⟩

theorem splitPieces_squeeze {sep : Char → Bool}
    (hsep : ∀ c, isWhitespace c = true → sep c = false) (t : Text) :
    splitPieces sep (squeeze t) =
      (squeeze (splitPieces sep t).1, (splitPieces sep t).2.map squeeze) := by
  have hpieces := (headSplit_splitPieces hsep).squeeze_pieces (g := List.map squeeze) ?_ ?_ () t
  · exact Option.some.inj hpieces
  · intro _ x hx
    cases hx
    rfl
  · intro _ c t hc ih
    have htail := Option.some.inj (ih ())
    simp only [splitPieces, htail, Option.map_some]
    cases hcs : sep c with
    | true => simp
    | false => simp [squeeze_solid hc]

theorem split_squeeze (sep : Char) (hsep : isWhitespace sep = false) (t : Text) :
    split sep (squeeze t) = (split sep t).map squeeze := by
  have hne : ∀ c, isWhitespace c = true → (c == sep) = false := by
    intro c hc
    by_contra hcs
    rw [Bool.not_eq_false, beq_iff_eq] at hcs
    rw [hcs, hsep] at hc
    cases hc
  rw [split, splitPieces_squeeze hne]
  rfl

section Pieces

variable {β : Type} {sep : β → Bool}

theorem splitPieces_none {p : List β} (hp : ∀ x ∈ p, sep x = false) :
    splitPieces sep p = (p, []) := by
  induction p with
  | nil => rfl
  | cons x p ih =>
    obtain ⟨hx, htail⟩ := List.forall_mem_cons.mp hp
    simp [splitPieces, ih htail, hx]

theorem splitPieces_append {p : List β} (hp : ∀ x ∈ p, sep x = false) {c : β} (hc : sep c = true)
    (q : List β) :
    splitPieces sep (p ++ c :: q) = (p, (splitPieces sep q).1 :: (splitPieces sep q).2) := by
  induction p with
  | nil => simp [splitPieces, hc]
  | cons x p ih =>
    obtain ⟨hx, htail⟩ := List.forall_mem_cons.mp hp
    simp [splitPieces, ih htail, hx]

/-- A list is a piece without a separator, or such a piece, a separator and a list. -/
theorem pieces_induction (sep : β → Bool) {motive : List β → Prop}
    (last : ∀ p, (∀ x ∈ p, sep x = false) → motive p)
    (more : ∀ p c q, (∀ x ∈ p, sep x = false) → sep c = true → motive q → motive (p ++ c :: q))
    (t : List β) : motive t := by
  induction hn : t.length using Nat.strong_induction_on generalizing t with
  | _ n ih =>
    have hfree : ∀ x ∈ t.takeWhile (fun x => !sep x), sep x = false := by
      intro x hx
      simpa using List.mem_takeWhile_imp hx
    have hsplit := List.takeWhile_append_dropWhile (p := fun x => !sep x) (l := t)
    match hdrop : t.dropWhile fun x => !sep x with
    | [] =>
      rw [hdrop, List.append_nil] at hsplit
      rw [hsplit] at hfree
      exact last t hfree
    | c :: q =>
      have hc := List.head?_dropWhile_not (fun x => !sep x) t
      rw [hdrop] at hc
      rw [hdrop] at hsplit
      rw [← hsplit]
      apply more _ c q hfree (by simpa using hc)
      apply ih q.length _ q rfl
      rw [← hn, ← hsplit, List.length_append, List.length_cons]
      omega

/-- Pieces of an image. -/
theorem splitPieces_map {γ : Type} (f : γ → β) (t : List γ) :
    splitPieces sep (t.map f) =
      ((splitPieces (sep ∘ f) t).1.map f, (splitPieces (sep ∘ f) t).2.map (List.map f)) := by
  induction t with
  | nil => rfl
  | cons x t ih =>
    simp only [List.map_cons, splitPieces, ih, Function.comp_apply]
    split
    · rfl
    · rfl

end Pieces

theorem lines_last {p : Text} (hp : ∀ c ∈ p, (c == '\n') = false) :
    lines p = if p = [] then [] else [p] := by
  rw [lines, split, splitPieces_none hp]
  by_cases h : p = []
  · rw [h]
    rfl
  · simp [h]

theorem lines_append {p : Text} (hp : ∀ c ∈ p, (c == '\n') = false) (q : Text) :
    lines (p ++ '\n' :: q) = stripCarriageReturn p :: lines q := by
  rw [lines, lines, split, splitPieces_append hp rfl, split]
  simp

theorem squeeze_append_congr (a : Text) {b b' : Text} (h : squeeze b = squeeze b') :
    squeeze (a ++ b) = squeeze (a ++ b') := by
  induction a with
  | nil => exact h
  | cons c a ih =>
    rw [List.cons_append, List.cons_append]
    cases hc : isWhitespace c with
    | true => rw [squeeze_white hc, squeeze_white hc, ih]
    | false => rw [squeeze_solid hc, squeeze_solid hc, ih]

def Blank (g : Text) : Prop := ∀ c ∈ g, isWhitespace c = true

instance (g : Text) : Decidable (Blank g) := List.decidableBAll _ g

/-- A run of whitespace is one space. -/
theorem squeeze_run {g : Text} (hne : g ≠ []) (hg : Blank g) (t : Text) :
    squeeze (g ++ t) = gap (squeeze t) := by
  induction g with
  | nil => exact absurd rfl hne
  | cons c g ih =>
    obtain ⟨hc, htail⟩ := List.forall_mem_cons.mp hg
    rw [List.cons_append, squeeze_white hc]
    by_cases hnil : g = []
    · rw [hnil, List.nil_append]
    · rw [ih hnil htail, gap_gap]

/-- A text is its trimmed text between two runs of whitespace. -/
theorem eq_trim (t : Text) : ∃ g h, Blank g ∧ Blank h ∧ t = g ++ (trim t ++ h) := by
  refine ⟨t.takeWhile isWhitespace, (trimStart t).rtakeWhile isWhitespace, ?_, ?_, ?_⟩
  · exact fun c hc => List.mem_takeWhile_imp hc
  · exact fun c hc => List.mem_rtakeWhile_imp hc
  · have hend : trim t ++ (trimStart t).rtakeWhile isWhitespace = trimStart t :=
      List.rdropWhile_append_rtakeWhile
    rw [hend]
    exact (List.takeWhile_append_dropWhile).symm

theorem trim_append_white (t : Text) {c : Char} (hc : isWhitespace c = true) :
    trim (t ++ [c]) = trim t := by
  have hstart : trimStart (t ++ [c]) = trimStart t ++ [c] ∨
      (trimStart t = [] ∧ trimStart (t ++ [c]) = []) := by
    rw [trimStart, trimStart, List.dropWhile_append]
    split
    next hempty => exact .inr ⟨List.isEmpty_iff.mp hempty, List.dropWhile_cons_of_pos hc⟩
    · exact .inl rfl
  rcases hstart with h | ⟨hnil, h⟩
  · rw [trim, trim, h]
    exact List.rdropWhile_concat_pos _ _ _ hc
  · rw [trim, trim, h, hnil]

theorem count_blank {g : Text} (hg : Blank g) {c : Char} (hc : isWhitespace c = false) :
    g.count c = 0 := by
  rw [List.count_eq_zero]
  intro hmem
  rw [hg c hmem] at hc
  cases hc

theorem count_trim (t : Text) {c : Char} (hc : isWhitespace c = false) :
    (trim t).count c = t.count c := by
  obtain ⟨g, h, hg, hh, ht⟩ := eq_trim t
  conv_rhs => rw [ht]
  rw [List.count_append, List.count_append, count_blank hg hc, count_blank hh hc, Nat.zero_add,
    Nat.add_zero]

theorem trimStart_blank_append {g : Text} (hg : Blank g) (t : Text) :
    trimStart (g ++ t) = trimStart t := by
  induction g with
  | nil => rfl
  | cons c g ih =>
    rw [List.cons_append, trimStart_white (hg c List.mem_cons_self)]
    exact ih fun d hd => hg d (List.mem_cons_of_mem c hd)

theorem trim_trim (t : Text) : trim (trim t) = trim t := by
  have hstart : trimStart (trim t) = trim t := by
    rw [trim]
    cases hu : trimStart t with
    | nil => rfl
    | cons c u =>
      have hc := List.head?_dropWhile_not isWhitespace t
      rw [← trimStart, hu] at hc
      rw [trimEnd_solid (by simpa using hc), trimStart_solid (by simpa using hc)]
  rw [trim, hstart, trim]
  exact List.rdropWhile_idempotent isWhitespace _

theorem trim_concat_solid (t : Text) {c : Char} (hc : isWhitespace c = false) :
    trim (t ++ [c]) = trimStart t ++ [c] := by
  have hneg : ¬isWhitespace c = true := by
    rw [hc]
    decide
  have hstart : trimStart (t ++ [c]) = trimStart t ++ [c] := by
    rw [trimStart, trimStart, List.dropWhile_append]
    split
    next hempty =>
      rw [List.isEmpty_iff.mp hempty, List.dropWhile_cons_of_neg hneg]
      rfl
    · rfl
  rw [trim, hstart]
  exact List.rdropWhile_concat_neg _ _ _ hneg

theorem Solid.trimStart_eq {t : Text} (ht : Solid t) : trimStart t = t := by
  cases t with
  | nil => rfl
  | cons c t => exact trimStart_solid (solid_cons.mp ht).1 t

theorem Solid.trimEnd_eq {t : Text} (ht : Solid t) : trimEnd t = t := by
  induction t with
  | nil => rfl
  | cons c t ih => rw [trimEnd_solid (solid_cons.mp ht).1, ih (solid_cons.mp ht).2]

theorem Solid.trim_eq {t : Text} (ht : Solid t) : trim t = t := by
  rw [trim, ht.trimStart_eq, ht.trimEnd_eq]

section TakeWhile

variable {p : Char → Bool}

/-- A test that whitespace passes. -/
theorem takeWhile_squeeze (hp : ∀ c, isWhitespace c = true → p c = true) (t : Text) :
    (squeeze t).takeWhile p = squeeze (t.takeWhile p) := by
  have hgap : ∀ m : Text, (gap m).takeWhile p = gap (m.takeWhile p) := by
    intro m
    match m with
    | [] => rw [gap_nil, List.takeWhile_cons_of_pos (hp ' ' isWhitespace_space)]; rfl
    | c :: m =>
      by_cases hc : c = ' '
      · rw [hc, gap_space, List.takeWhile_cons_of_pos (hp ' ' isWhitespace_space), gap_space]
      · rw [gap_cons hc, List.takeWhile_cons_of_pos (hp ' ' isWhitespace_space)]
        cases hpc : p c with
        | true => rw [List.takeWhile_cons_of_pos hpc, gap_cons hc]
        | false => rw [List.takeWhile_cons_of_neg (by rw [hpc]; decide), gap_nil]
  induction t with
  | nil => rfl
  | cons c t ih =>
    cases hc : isWhitespace c with
    | true =>
      rw [squeeze_white hc, hgap, ih, List.takeWhile_cons_of_pos (hp c hc), squeeze_white hc]
    | false =>
      rw [squeeze_solid hc]
      cases hpc : p c with
      | true =>
        rw [List.takeWhile_cons_of_pos hpc, List.takeWhile_cons_of_pos hpc, ih, squeeze_solid hc]
      | false =>
        rw [List.takeWhile_cons_of_neg (by rw [hpc]; decide),
          List.takeWhile_cons_of_neg (by rw [hpc]; decide), squeeze_nil]

theorem dropWhile_squeeze (hp : ∀ c, isWhitespace c = true → p c = true) (t : Text) :
    (squeeze t).dropWhile p = squeeze (t.dropWhile p) := by
  have hgap : ∀ m : Text, (gap m).dropWhile p = m.dropWhile p := by
    intro m
    match m with
    | [] => rw [gap_nil, List.dropWhile_cons_of_pos (hp ' ' isWhitespace_space)]
    | c :: m =>
      by_cases hc : c = ' '
      · rw [hc, gap_space]
      · rw [gap_cons hc, List.dropWhile_cons_of_pos (hp ' ' isWhitespace_space)]
  induction t with
  | nil => rfl
  | cons c t ih =>
    cases hc : isWhitespace c with
    | true => rw [squeeze_white hc, hgap, ih, List.dropWhile_cons_of_pos (hp c hc)]
    | false =>
      rw [squeeze_solid hc]
      cases hpc : p c with
      | true => rw [List.dropWhile_cons_of_pos hpc, List.dropWhile_cons_of_pos hpc, ih]
      | false =>
        rw [List.dropWhile_cons_of_neg (by rw [hpc]; decide),
          List.dropWhile_cons_of_neg (by rw [hpc]; decide), squeeze_solid hc]

end TakeWhile

/-- The head before the first whitespace, and the rest but for its surrounding whitespace. -/
theorem splitWhitespaceOnce_squeeze (t : Text) :
    (splitWhitespaceOnce (squeeze t)).map (fun x => (x.1, trim x.2)) =
      (splitWhitespaceOnce t).map fun x => (x.1, squeeze (trim x.2)) := by
  induction t with
  | nil => rfl
  | cons c t ih =>
    cases hc : isWhitespace c with
    | true =>
      obtain ⟨m, hm⟩ := gap_eq_cons (squeeze t)
      have hrest : trim m = squeeze (trim t) := by
        rw [squeeze_trim, ← trim_white isWhitespace_space m, ← hm, trim, trimStart_gap]
        rfl
      simp [squeeze_white hc, hm, splitWhitespaceOnce, hc, hrest]
    | false =>
      have hcons : ∀ u : Text, splitWhitespaceOnce (c :: u) =
          (splitWhitespaceOnce u).map fun x => (c :: x.1, x.2) := by
        intro u
        simp only [splitWhitespaceOnce, hc, Bool.not_false, List.dropWhile_cons_of_pos,
          List.takeWhile_cons_of_pos]
        cases u.dropWhile fun c => !isWhitespace c <;> rfl
      rw [squeeze_solid hc, hcons, hcons, Option.map_map, Option.map_map]
      have hboth := congrArg (Option.map fun x : Text × Text => (c :: x.1, x.2)) ih
      rw [Option.map_map, Option.map_map] at hboth
      exact hboth

end CharText
