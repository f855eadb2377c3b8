import OdpPlatform.EcScriptRelaid

/-! # test-script: buffer literals

`Buffer(16) { .. }`, the argument of `set_real_time`. -/
namespace EcScriptBuffers

open CharText EcScript EcScriptParser EcScriptSqueeze EcScriptRelaid

def digitsFrom (radix : ℕ) (n : ℕ) (t : Text) : ℕ :=
  t.foldl (fun n c => n * radix + (toDigit radix c).getD 0) n

structure IsDigitsOf (radix : ℕ) (t : Text) : Prop where
  ne_nil : t ≠ []
  digits : ∀ c ∈ t, (toDigit radix c).isSome = true

inductive IsByte : Text → UInt8 → Prop where
  | decimal {t : Text} {b : UInt8} : IsDigitsOf 10 t → digitsFrom 10 0 t = b.toNat → IsByte t b
  | hexadecimal {x : Char} {t : Text} {b : UInt8} : x = 'x' ∨ x = 'X' → IsDigitsOf 16 t →
      digitsFrom 16 0 t = b.toNat → IsByte ('0' :: x :: t) b

inductive IsBytes : Text → List UInt8 → Prop where
  | last {t : Text} {b : UInt8} : IsByte (trim t) b → IsBytes t [b]
  | next {t rest : Text} {b : UInt8} {bs : List UInt8} : IsByte (trim t) b → IsBytes rest bs →
      IsBytes (t ++ ',' :: rest) (b :: bs)

/-- One comma may follow the last literal. -/
inductive IsInitializer : Text → List UInt8 → Prop where
  | plain {t : Text} {bytes : List UInt8} : IsBytes t bytes → IsInitializer t bytes
  | trailing {t : Text} {bytes : List UInt8} : IsBytes t bytes → IsInitializer (t ++ [',']) bytes

inductive IsBuffer : Text → List UInt8 → Prop where
  | mk {g size rest body : Text} {bytes : List UInt8} : Blank g → IsByte (trim size) 16 →
      trim rest = '\x7b' :: (body ++ ['\x7d']) → IsInitializer (trim body) bytes →
      IsBuffer ("Buffer".toList ++ (g ++ '(' :: (size ++ ')' :: rest))) bytes

theorem le_digitsFrom {radix : ℕ} (hradix : 0 < radix) (n : ℕ) (t : Text) :
    n ≤ digitsFrom radix n t := by
  induction t generalizing n with
  | nil => exact Nat.le_refl n
  | cons c t ih =>
    calc n ≤ n * radix + (toDigit radix c).getD 0 :=
          (Nat.le_mul_of_pos_right n hradix).trans (Nat.le_add_right _ _)
      _ ≤ digitsFrom radix n (c :: t) := ih _

/-- The bound holds behind every digit where it holds behind the last one. -/
theorem parseDigits_eq_ok {radix bound n m : ℕ} (hradix : 0 < radix) (hn : n < bound) {t : Text} :
    parseDigits radix bound n t = .ok m ↔
      (∀ c ∈ t, (toDigit radix c).isSome = true) ∧ digitsFrom radix n t = m ∧ m < bound := by
  induction t generalizing n with
  | nil =>
    rw [parseDigits]
    constructor
    · intro h
      cases h
      exact ⟨List.forall_mem_nil _, rfl, hn⟩
    · rintro ⟨-, rfl, -⟩
      rfl
  | cons c t ih =>
    rw [parseDigits, List.forall_mem_cons, digitsFrom, List.foldl_cons]
    cases hdigit : toDigit radix c with
    | none => simp
    | some d =>
      dsimp only [Option.getD_some]
      split
      next hlt =>
        rw [ih hlt]
        simp [digitsFrom]
      next hge =>
        refine iff_of_false (by rintro ⟨⟩) ?_
        rintro ⟨-, rfl, hlt⟩
        have hle := le_digitsFrom hradix (n * radix + d) t
        rw [digitsFrom] at hle
        omega

/-- A literal, behind the choice of its radix. -/
theorem literal_eq_ok {radix : ℕ} (hradix : 0 < radix) {digits : Text} {b : UInt8}
    {e : String} {e' : String → String} :
    (if digits = [] ∨ ¬digits.all (fun c => (toDigit radix c).isSome) = true then .error e
      else match parseDigits radix 256 0 digits with
        | .ok n => .ok (UInt8.ofNat n)
        | .error x => .error (e' x) : Except String UInt8) = .ok b ↔
      IsDigitsOf radix digits ∧ digitsFrom radix 0 digits = b.toNat := by
  split
  next hbad =>
    apply iff_of_false nofun
    rintro ⟨⟨hne, hdigits⟩, -⟩
    rcases hbad with hnil | hall
    · exact hne hnil
    · exact hall (List.all_eq_true.mpr hdigits)
  next hgood =>
    rw [not_or, not_not, List.all_eq_true] at hgood
    have hparse := @parseDigits_eq_ok radix 256 0 b.toNat hradix (by decide) digits
    constructor
    · intro h
      split at h
      next n hn =>
        obtain ⟨-, hvalue, hlt⟩ := (parseDigits_eq_ok hradix (by decide)).mp hn
        cases h
        rw [UInt8.toNat_ofNat_of_lt' hlt]
        exact ⟨⟨hgood.1, hgood.2⟩, hvalue⟩
      · cases h
    · rintro ⟨-, hvalue⟩
      rw [hparse.mpr ⟨hgood.2, hvalue, b.toNat_lt⟩]
      exact congrArg Except.ok UInt8.ofNat_toNat

theorem parseU8Literal_eq_ok {s : Text} {b : UInt8} :
    parseU8Literal s = .ok b ↔ IsByte (trim s) b := by
  simp only [parseU8Literal]
  generalize trim s = t
  constructor
  · intro h
    cases hlower : stripPrefix "0x".toList t with
    | some hex =>
      simp only [hlower, Option.some_or] at h
      obtain ⟨hdigits, hvalue⟩ := (literal_eq_ok (by decide)).mp h
      rw [stripPrefix_eq_some.mp hlower]
      exact .hexadecimal (.inl rfl) hdigits hvalue
    | none =>
      cases hupper : stripPrefix "0X".toList t with
      | some hex =>
        simp only [hlower, hupper, Option.none_or] at h
        obtain ⟨hdigits, hvalue⟩ := (literal_eq_ok (by decide)).mp h
        rw [stripPrefix_eq_some.mp hupper]
        exact .hexadecimal (.inr rfl) hdigits hvalue
      | none =>
        simp only [hlower, hupper, Option.none_or] at h
        obtain ⟨hdigits, hvalue⟩ := (literal_eq_ok (by decide)).mp h
        exact .decimal hdigits hvalue
  · intro h
    cases h with
    | decimal hdigits hvalue =>
      have hmarker : ∀ x, toDigit 10 x = none → stripPrefix ['0', x] t = none := by
        intro x hx
        rw [Option.eq_none_iff_forall_ne_some]
        intro u hu
        have hmem := hdigits.digits x (stripPrefix_eq_some.mp hu ▸ by simp)
        rw [hx] at hmem
        cases hmem
      have hlower : stripPrefix "0x".toList t = none := hmarker 'x' rfl
      have hupper : stripPrefix "0X".toList t = none := hmarker 'X' rfl
      simp only [hlower, hupper, Option.none_or]
      exact (literal_eq_ok (by decide)).mpr ⟨hdigits, hvalue⟩
    | @hexadecimal x t _ hx hdigits hvalue =>
      have hhex : (stripPrefix "0x".toList ('0' :: x :: t)).or
          (stripPrefix "0X".toList ('0' :: x :: t)) = some t := by
        rcases hx with rfl | rfl
        · have hlower : stripPrefix "0x".toList ('0' :: 'x' :: t) = some t :=
            stripPrefix_eq_some.mpr rfl
          rw [hlower, Option.some_or]
        · have hlower : stripPrefix "0x".toList ('0' :: 'X' :: t) = none := by
            rw [Option.eq_none_iff_forall_ne_some]
            intro u hu
            simpa using stripPrefix_eq_some.mp hu
          rw [hlower, Option.none_or]
          exact stripPrefix_eq_some.mpr rfl
      rw [hhex]
      exact (literal_eq_ok (show 0 < 16 by decide)).mpr ⟨hdigits, hvalue⟩

theorem isAlphanum_of_toDigit {radix : ℕ} {c : Char} (hc : (toDigit radix c).isSome = true) :
    c.isAlphanum = true := by
  by_contra hnot
  simp only [Char.isAlphanum, Char.isAlpha, Bool.or_eq_true, not_or] at hnot
  simp only [toDigit, if_neg hnot.2, if_neg hnot.1.1, if_neg hnot.1.2, Nat.lt_irrefl, if_false] at hc
  cases hc

theorem IsByte.isAlphanum {t : Text} {b : UInt8} (ht : IsByte t b) :
    ∀ c ∈ t, c.isAlphanum = true := by
  cases ht with
  | decimal hdigits => exact fun c hc => isAlphanum_of_toDigit (hdigits.digits c hc)
  | hexadecimal hx hdigits =>
    simp only [List.forall_mem_cons]
    refine ⟨rfl, ?_, fun c hc => isAlphanum_of_toDigit (hdigits.digits c hc)⟩
    rcases hx with rfl | rfl <;> rfl

theorem not_mem_of_trim {c : Char} (hc : isWhitespace c = false) {t : Text} (ht : c ∉ trim t) :
    c ∉ t := by
  rwa [← List.count_eq_zero, ← count_trim t hc, List.count_eq_zero]

/-- Punctuation is no part of a literal. -/
theorem not_mem_of_byte {c : Char} (hc : isWhitespace c = false) (hpunct : c.isAlphanum = false)
    {t : Text} {b : UInt8} (ht : IsByte (trim t) b) : c ∉ t := by
  apply not_mem_of_trim hc
  intro hmem
  rw [ht.isAlphanum c hmem] at hpunct
  cases hpunct

theorem not_comma {t : Text} (ht : ',' ∉ t) : ∀ c ∈ t, (c == ',') = false :=
  fun _ hc => beq_eq_false_iff_ne.mpr (ne_of_mem_of_not_mem hc ht)

theorem split_last {t : Text} (ht : ',' ∉ t) : split ',' t = [t] := by
  rw [split, splitPieces_none (not_comma ht)]

theorem split_next {t : Text} (ht : ',' ∉ t) (rest : Text) :
    split ',' (t ++ ',' :: rest) = t :: split ',' rest := by
  rw [split, splitPieces_append (not_comma ht) rfl, split]

theorem parseBytes_cons {t : Text} {rest : List Text} {bytes : List UInt8} :
    parseBytes (t :: rest) = .ok bytes ↔
      ∃ b bs, bytes = b :: bs ∧ IsByte (trim t) b ∧ parseBytes rest = .ok bs := by
  rw [parseBytes]
  constructor
  · intro h
    obtain ⟨b, hb, hrest⟩ := bind_eq_ok h
    obtain ⟨bs, hbs, heq⟩ := bind_eq_ok hrest
    cases heq
    exact ⟨b, bs, rfl, parseU8Literal_eq_ok.mp hb, hbs⟩
  · rintro ⟨b, bs, rfl, hb, hbs⟩
    rw [parseU8Literal_eq_ok.mpr hb, hbs]
    rfl

theorem parseBytes_split {t : Text} {bytes : List UInt8} :
    parseBytes (split ',' t) = .ok bytes ↔ IsBytes t bytes := by
  constructor
  · intro h
    induction t using pieces_induction (· == ',') generalizing bytes with
    | last p hp =>
      rw [split_last fun hmem => by simpa using hp ',' hmem, parseBytes_cons] at h
      obtain ⟨b, bs, rfl, hb, hbs⟩ := h
      cases hbs
      exact .last hb
    | more p c q hp hc ih =>
      rw [beq_iff_eq] at hc
      subst hc
      rw [split_next fun hmem => by simpa using hp ',' hmem, parseBytes_cons] at h
      obtain ⟨b, bs, rfl, hb, hbs⟩ := h
      exact .next hb (ih hbs)
  · intro h
    induction h with
    | last hb =>
      rw [split_last (not_mem_of_byte (by decide) (by decide) hb), parseBytes_cons]
      exact ⟨_, [], rfl, hb, rfl⟩
    | next hb _ ih =>
      rw [split_next (not_mem_of_byte (by decide) (by decide) hb), parseBytes_cons]
      exact ⟨_, _, rfl, hb, ih⟩

theorem IsByte.ne_nil {t : Text} {b : UInt8} (ht : IsByte t b) : t ≠ [] := by
  cases ht with
  | decimal hdigits => exact hdigits.ne_nil
  | hexadecimal => exact List.cons_ne_nil _ _

theorem IsBytes.ne_nil {t : Text} {bytes : List UInt8} (ht : IsBytes t bytes) : t ≠ [] := by
  cases ht with
  | last hb =>
    rintro rfl
    exact hb.ne_nil rfl
  | next => simp

theorem IsBytes.getLast {t : Text} {bytes : List UInt8} (ht : IsBytes t bytes) :
    t.getLast? ≠ some ',' := by
  induction ht with
  | last hb =>
    exact fun h => not_mem_of_byte (by decide) (by decide) hb (List.mem_of_getLast? h)
  | @next t rest b bs hb hrest ih =>
    rwa [List.append_cons, List.getLast?_append_of_ne_nil _ hrest.ne_nil]

theorem parseBytes_initializer {t : Text} {bytes : List UInt8} :
    parseBytes (split ',' ((stripSuffix [','] t).getD t)) = .ok bytes ↔ IsInitializer t bytes := by
  constructor
  · intro h
    cases hstrip : stripSuffix [','] t with
    | none =>
      rw [hstrip] at h
      exact .plain (parseBytes_split.mp h)
    | some u =>
      rw [hstrip] at h
      rw [stripSuffix_eq_some.mp hstrip]
      exact .trailing (parseBytes_split.mp h)
  · intro h
    cases h with
    | plain hbytes =>
      have hstrip : stripSuffix [','] t = none := by
        rw [Option.eq_none_iff_forall_ne_some]
        intro u hu
        apply hbytes.getLast
        rw [stripSuffix_eq_some.mp hu, List.getLast?_concat]
      rw [hstrip]
      exact parseBytes_split.mpr hbytes
    | trailing hbytes =>
      rw [stripSuffix_eq_some.mpr rfl]
      exact parseBytes_split.mpr hbytes

section Buffers

variable [ScriptHost]

/-- Sixteen bytes that the host decodes. -/
def IsTimestamp (t : Text) : Prop :=
  ∃ bytes, IsBuffer t bytes ∧ bytes.length = 16 ∧
    (bytes.getD 8 0).toNat + 2 ^ 8 * (bytes.getD 9 0).toNat ≤ 999 ∧
    (ScriptHost.timestampFromBytes bytes).isOk = true

theorem isOk_checkTimestamp {bytes : List UInt8} :
    (checkTimestamp bytes).isOk = true ↔ bytes.length = 16 ∧
      (bytes.getD 8 0).toNat + 2 ^ 8 * (bytes.getD 9 0).toNat ≤ 999 ∧
      (ScriptHost.timestampFromBytes bytes).isOk = true := by
  rw [checkTimestamp]
  by_cases hlength : bytes.length = 16
  · rw [if_neg (not_not.mpr hlength)]
    by_cases hlarge : (bytes.getD 8 0).toNat + 2 ^ 8 * (bytes.getD 9 0).toNat ≤ 999
    · simp only [if_neg (Nat.not_lt.mpr hlarge)]
      cases ScriptHost.timestampFromBytes bytes with
      | ok t => exact iff_of_true rfl ⟨hlength, hlarge, rfl⟩
      | error e => exact iff_of_false Bool.false_ne_true fun h => Bool.false_ne_true h.2.2
    · simp only [if_pos (Nat.lt_of_not_le hlarge)]
      exact iff_of_false Bool.false_ne_true fun h => hlarge h.2.1
  · rw [if_pos hlength]
    exact iff_of_false Bool.false_ne_true fun h => hlength h.1

theorem parseTimestampBuffer_of_isBuffer {s : Text} {bytes : List UInt8} (hs : IsBuffer s bytes) :
    parseTimestampBuffer s = checkTimestamp bytes := by
  cases hs with
  | @mk g size rest body _ hg hsize hrest hbody =>
    have hopen : (stripPrefix "Buffer".toList
        ("Buffer".toList ++ (g ++ '(' :: (size ++ ')' :: rest)))).bind
          (fun s => stripPrefix ['('] (trimStart s)) = some (size ++ ')' :: rest) := by
      rw [stripPrefix_eq_some.mpr rfl, Option.bind_some, trimStart_blank_append hg,
        trimStart_solid (by decide)]
      exact stripPrefix_eq_some.mpr rfl
    have hclose := splitOnce_single (not_mem_of_byte (c := ')') (by decide) (by decide) hsize) rest
    have hbraces : (stripPrefix ['\x7b'] (trim rest)).bind (stripSuffix ['\x7d']) = some body := by
      rw [hrest, stripPrefix_single, if_pos rfl, Option.bind_some]
      exact stripSuffix_eq_some.mpr rfl
    rw [parseTimestampBuffer, hopen, Option.bind_some, hclose]
    dsimp only
    rw [parseU8Literal_eq_ok.mpr hsize, hbraces]
    dsimp only [bind, Except.bind]
    rw [if_neg (not_not.mpr rfl), parseBytes_initializer.mpr hbody]

theorem isBuffer_of_parse {s : Text} {t : AcpiTimestamp} (h : parseTimestampBuffer s = .ok t) :
    ∃ bytes, IsBuffer s bytes ∧ checkTimestamp bytes = .ok t := by
  rw [parseTimestampBuffer] at h
  split at h
  · cases h
  next size rest hhead =>
    obtain ⟨inner, hopen, hclose⟩ := Option.bind_eq_some_iff.mp hhead
    obtain ⟨behind, hbuffer, hparen⟩ := Option.bind_eq_some_iff.mp hopen
    obtain ⟨size', hsize, hrest⟩ := bind_eq_ok h
    split at hrest
    · cases hrest
    next h16 =>
      rw [not_not] at h16
      subst h16
      split at hrest
      · cases hrest
      next body hbraces =>
        obtain ⟨inside, hleft, hright⟩ := Option.bind_eq_some_iff.mp hbraces
        obtain ⟨bytes, hbytes, hcheck⟩ := bind_eq_ok hrest
        refine ⟨bytes, ?_, hcheck⟩
        have hgap : behind = behind.takeWhile isWhitespace ++ trimStart behind :=
          (List.takeWhile_append_dropWhile).symm
        rw [stripPrefix_eq_some.mp hparen, append_of_splitOnce hclose, List.append_assoc size] at hgap
        rw [stripPrefix_eq_some.mp hbuffer, hgap]
        rw [stripSuffix_eq_some.mp hright] at hleft
        exact .mk (fun _ hc => List.mem_takeWhile_imp hc) (parseU8Literal_eq_ok.mp hsize)
          (stripPrefix_eq_some.mp hleft) (parseBytes_initializer.mp hbytes)

/-- The parser takes the buffers of sixteen bytes that the host decodes. -/
theorem isOk_parseTimestampBuffer {s : Text} :
    (parseTimestampBuffer s).isOk = true ↔ IsTimestamp s := by
  constructor
  · intro h
    cases hparse : parseTimestampBuffer s with
    | error e =>
      rw [hparse] at h
      cases h
    | ok t =>
      obtain ⟨bytes, hbytes, hcheck⟩ := isBuffer_of_parse hparse
      exact ⟨bytes, hbytes, isOk_checkTimestamp.mp (by rw [hcheck]; rfl)⟩
  · rintro ⟨bytes, hbytes, hcheck⟩
    rw [parseTimestampBuffer_of_isBuffer hbytes]
    exact isOk_checkTimestamp.mpr hcheck

end Buffers

end EcScriptBuffers
