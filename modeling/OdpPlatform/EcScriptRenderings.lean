import OdpPlatform.EcScriptBuffers

/-! # test-script: how sixteen bytes can be written

The layout of a buffer literal token by token, whitespace between any two of them. The parser reads
back the bytes of every layout, and takes no other text. -/
namespace EcScriptRenderings

open CharText EcScript EcScriptParser EcScriptSqueeze EcScriptRelaid EcScriptBuffers

def Spaced (token t : Text) : Prop := ∃ g h, Blank g ∧ Blank h ∧ t = g ++ (token ++ h)

inductive RendersBytes : List UInt8 → Text → Prop where
  | last {b : UInt8} {token t : Text} : IsByte token b → Spaced token t → RendersBytes [b] t
  | next {b : UInt8} {bs : List UInt8} {token t rest : Text} : IsByte token b → Spaced token t →
      RendersBytes bs rest → RendersBytes (b :: bs) (t ++ ',' :: rest)

inductive IsTrailing : Text → Prop where
  | none : IsTrailing []
  | comma {h : Text} : Blank h → IsTrailing (',' :: h)

inductive RendersBuffer (isSize : Text → Prop) (bytes : List UInt8) : Text → Prop where
  | mk {g token size gap body trailing h : Text} : Blank g → isSize token → Spaced token size →
      Blank gap → RendersBytes bytes body → IsTrailing trailing → Blank h →
      RendersBuffer isSize bytes ("Buffer".toList ++ (g ++ '(' :: (size ++ ')' ::
        (gap ++ '\x7b' :: (body ++ (trailing ++ '\x7d' :: h))))))

theorem trim_blank_append {g : Text} (hg : Blank g) (t : Text) : trim (g ++ t) = trim t := by
  rw [trim, trimStart_blank_append hg, trim]

theorem trim_append_blank (t : Text) {h : Text} (hh : Blank h) : trim (t ++ h) = trim t := by
  induction h using List.reverseRecOn with
  | nil => rw [List.append_nil]
  | append_singleton h c ih =>
    rw [← List.append_assoc, trim_append_white _ (hh c (by simp))]
    exact ih fun d hd => hh d (by simp [hd])

theorem trimStart_append_solid (t : Text) {c : Char} (hc : isWhitespace c = false) (rest : Text) :
    trimStart (t ++ c :: rest) = trimStart t ++ c :: rest := by
  induction t with
  | nil => exact trimStart_solid hc rest
  | cons d t ih =>
    cases hd : isWhitespace d with
    | true => rw [List.cons_append, trimStart_white hd, trimStart_white hd, ih]
    | false => rw [List.cons_append, trimStart_solid hd, trimStart_solid hd, List.cons_append]

theorem trimEnd_append_solid (t : Text) {c : Char} (hc : isWhitespace c = false) (rest : Text) :
    trimEnd (t ++ c :: rest) = t ++ c :: trimEnd rest := by
  induction t with
  | nil => exact trimEnd_solid hc rest
  | cons d t ih =>
    rw [List.cons_append, trimEnd_cons, ih, if_neg fun h => by simpa using h.1, List.cons_append]

theorem trim_trimStart (t : Text) : trim (trimStart t) = trim t := by
  have hstart : trimStart (trimStart t) = trimStart t := List.dropWhile_idempotent isWhitespace t
  rw [trim, hstart, trim]

theorem trim_trimEnd (t : Text) : trim (trimEnd t) = trim t := by
  have hsplit : trimEnd t ++ t.rtakeWhile isWhitespace = t := List.rdropWhile_append_rtakeWhile
  have hblank : Blank (t.rtakeWhile isWhitespace) := fun c hc => List.mem_rtakeWhile_imp hc
  calc trim (trimEnd t) = trim (trimEnd t ++ t.rtakeWhile isWhitespace) :=
        (trim_append_blank _ hblank).symm
    _ = trim t := by rw [hsplit]

theorem spaced_trim (t : Text) : Spaced (trim t) t := eq_trim t

theorem Spaced.trim_eq {token t : Text} (ht : Spaced token t) (htoken : Solid token) :
    trim t = token := by
  obtain ⟨g, h, hg, hh, rfl⟩ := ht
  rw [trim_blank_append hg, trim_append_blank _ hh, htoken.trim_eq]

theorem solid_of_isByte {t : Text} {b : UInt8} (ht : IsByte t b) : Solid t := by
  intro c hc
  have halnum := ht.isAlphanum c hc
  rw [Char.isAlphanum, Bool.or_eq_true] at halnum
  cases halnum with
  | inl halpha => exact not_white_alpha halpha
  | inr hdigit => exact not_white_digit hdigit

theorem isBytes_iff {t : Text} {bytes : List UInt8} : IsBytes t bytes ↔ RendersBytes bytes t := by
  constructor
  · intro h
    induction h with
    | last hb => exact .last hb (spaced_trim _)
    | next hb _ ih => exact .next hb (spaced_trim _) ih
  · intro h
    induction h with
    | last hb ht =>
      apply IsBytes.last
      rwa [ht.trim_eq (solid_of_isByte hb)]
    | next hb ht _ ih =>
      apply IsBytes.next _ ih
      rwa [ht.trim_eq (solid_of_isByte hb)]

theorem isBytes_trimStart {t : Text} {bytes : List UInt8} (h : IsBytes t bytes) :
    IsBytes (trimStart t) bytes := by
  cases h with
  | last hb =>
    apply IsBytes.last
    rwa [trim_trimStart]
  | next hb hrest =>
    rw [trimStart_append_solid _ (by decide)]
    apply IsBytes.next _ hrest
    rwa [trim_trimStart]

theorem isBytes_trimEnd {t : Text} {bytes : List UInt8} (h : IsBytes t bytes) :
    IsBytes (trimEnd t) bytes := by
  induction h with
  | last hb =>
    apply IsBytes.last
    rwa [trim_trimEnd]
  | next hb _ ih =>
    rw [trimEnd_append_solid _ (by decide)]
    exact .next hb ih

theorem isBytes_blank_append {g t : Text} {bytes : List UInt8} (hg : Blank g)
    (h : IsBytes t bytes) : IsBytes (g ++ t) bytes := by
  cases h with
  | last hb =>
    apply IsBytes.last
    rwa [trim_blank_append hg]
  | next hb hrest =>
    rw [← List.append_assoc]
    apply IsBytes.next _ hrest
    rwa [trim_blank_append hg]

theorem isBytes_append_blank {t h : Text} {bytes : List UInt8} (hh : Blank h)
    (ht : IsBytes t bytes) : IsBytes (t ++ h) bytes := by
  induction ht with
  | last hb =>
    apply IsBytes.last
    rwa [trim_append_blank _ hh]
  | next hb _ ih =>
    rw [List.append_assoc, List.cons_append]
    exact .next hb ih

/-- The bytes between braces, as the parser trims them. -/
theorem isInitializer_iff {t : Text} {bytes : List UInt8} :
    IsInitializer (trim t) bytes ↔
      ∃ body trailing, RendersBytes bytes body ∧ IsTrailing trailing ∧ t = body ++ trailing := by
  constructor
  · intro h
    obtain ⟨g, k, hg, hk, ht⟩ := eq_trim t
    generalize htrim : trim t = u at h ht
    cases h with
    | plain hbytes =>
      refine ⟨t, [], isBytes_iff.mp ?_, .none, (List.append_nil t).symm⟩
      rw [ht]
      exact isBytes_blank_append hg (isBytes_append_blank hk hbytes)
    | @trailing body _ hbytes =>
      refine ⟨g ++ body, ',' :: k, isBytes_iff.mp (isBytes_blank_append hg hbytes), .comma hk, ?_⟩
      rw [ht, List.append_assoc, List.append_assoc]
      rfl
  · intro ⟨body, trailing, hbody, htrailing, ht⟩
    have hbytes := isBytes_iff.mpr hbody
    cases htrailing with
    | none =>
      rw [ht, List.append_nil, trim]
      exact .plain (isBytes_trimEnd (isBytes_trimStart hbytes))
    | @comma h hh =>
      have htrim : trim t = trimStart body ++ [','] := by
        rw [ht, List.append_cons, trim_append_blank _ hh, trim_concat_solid _ (by decide)]
      rw [htrim]
      exact .trailing (isBytes_trimStart hbytes)

/-- Behind the size. -/
theorem trim_braces_iff {rest body : Text} :
    trim rest = '\x7b' :: (body ++ ['\x7d']) ↔
      ∃ gap h, Blank gap ∧ Blank h ∧ rest = gap ++ '\x7b' :: (body ++ '\x7d' :: h) := by
  constructor
  · intro htrim
    obtain ⟨gap, h, hgap, hh, hrest⟩ := eq_trim rest
    rw [htrim, List.cons_append, List.append_assoc] at hrest
    exact ⟨gap, h, hgap, hh, hrest⟩
  · intro ⟨gap, h, hgap, hh, hrest⟩
    calc trim rest = trim (('\x7b' :: body ++ ['\x7d']) ++ h) := by
          rw [hrest, trim_blank_append hgap, List.append_assoc]
          rfl
      _ = trimStart ('\x7b' :: body) ++ ['\x7d'] := by
          rw [trim_append_blank _ hh, trim_concat_solid _ (by decide)]
      _ = '\x7b' :: (body ++ ['\x7d']) := by
          rw [trimStart_solid (by decide)]
          rfl

theorem isBuffer_iff {s : Text} {bytes : List UInt8} :
    IsBuffer s bytes ↔ RendersBuffer (fun token => IsByte token 16) bytes s := by
  constructor
  · intro hs
    cases hs with
    | mk hg hsize hrest hinit =>
      obtain ⟨gap, h, hgap, hh, rfl⟩ := trim_braces_iff.mp hrest
      obtain ⟨body, trailing, hbody, htrailing, rfl⟩ := isInitializer_iff.mp hinit
      rw [List.append_assoc body]
      exact .mk hg hsize (spaced_trim _) hgap hbody htrailing hh
  · intro hs
    cases hs with
    | mk hg htoken hsize hgap hbody htrailing hh =>
      rw [← List.append_assoc _ _ ('\x7d' :: _)]
      refine .mk hg ?_ (trim_braces_iff.mpr ⟨_, _, hgap, hh, rfl⟩)
        (isInitializer_iff.mpr ⟨_, _, hbody, htrailing, rfl⟩)
      rwa [hsize.trim_eq (solid_of_isByte htoken)]

/-- Bytes 8 and 9. -/
def milliseconds (bytes : List UInt8) : ℕ :=
  (bytes.getD 8 0).toNat + 2 ^ 8 * (bytes.getD 9 0).toNat

def decoded [ScriptHost] (bytes : List UInt8) : Except String AcpiTimestamp :=
  (ScriptHost.timestampFromBytes bytes).mapError ("invalid RTC timestamp: " ++ ·)

structure ReadsBuffers (isSize : Text → Prop) [ScriptHost] (s : Text) : Prop where
  decodes : ∀ bytes, bytes.length = 16 → RendersBuffer isSize bytes s → milliseconds bytes ≤ 999 →
    parseTimestampBuffer s = decoded bytes
  tooLarge : ∀ bytes, bytes.length = 16 → RendersBuffer isSize bytes s → 999 < milliseconds bytes →
    parseTimestampBuffer s = .error ("invalid RTC timestamp: milliseconds " ++
      toString (milliseconds bytes) ++ " out of range 0..=999")
  rejects : (¬∃ bytes, bytes.length = 16 ∧ RendersBuffer isSize bytes s) →
    ∃ e, parseTimestampBuffer s = .error e

section Clock

variable [ScriptHost]

theorem checkTimestamp_of_le {bytes : List UInt8} (hlength : bytes.length = 16)
    (hle : milliseconds bytes ≤ 999) : checkTimestamp bytes = decoded bytes := by
  have hnot : ¬(bytes.getD 8 0).toNat + 2 ^ 8 * (bytes.getD 9 0).toNat > 999 := Nat.not_lt.mpr hle
  rw [checkTimestamp, if_neg (not_not.mpr hlength), decoded]
  simp only [if_neg hnot]
  cases ScriptHost.timestampFromBytes bytes <;> rfl

theorem checkTimestamp_of_gt {bytes : List UInt8} (hlength : bytes.length = 16)
    (hgt : 999 < milliseconds bytes) :
    checkTimestamp bytes = .error ("invalid RTC timestamp: milliseconds " ++
      toString (milliseconds bytes) ++ " out of range 0..=999") := by
  have hlarge : (bytes.getD 8 0).toNat + 2 ^ 8 * (bytes.getD 9 0).toNat > 999 := hgt
  rw [checkTimestamp, if_neg (not_not.mpr hlength)]
  simp only [if_pos hlarge]
  rfl

theorem parse_of_renders {s : Text} {bytes : List UInt8}
    (hs : RendersBuffer (fun token => IsByte token 16) bytes s) :
    parseTimestampBuffer s = checkTimestamp bytes :=
  parseTimestampBuffer_of_isBuffer (isBuffer_iff.mpr hs)

theorem renders_of_parse {s : Text} {t : AcpiTimestamp} (h : parseTimestampBuffer s = .ok t) :
    ∃ bytes, bytes.length = 16 ∧ RendersBuffer (fun token => IsByte token 16) bytes s := by
  obtain ⟨bytes, hbytes, hcheck⟩ := isBuffer_of_parse h
  have hok : (checkTimestamp bytes).isOk = true := by
    rw [hcheck]
    rfl
  exact ⟨bytes, (isOk_checkTimestamp.mp hok).1, isBuffer_iff.mp hbytes⟩

/-- The size may be any literal of sixteen; in front of `Buffer` stands nothing. -/
theorem reads_sized_buffers (s : Text) : ReadsBuffers (fun token => IsByte token 16) s where
  decodes bytes hlength hs hle := by
    rw [parse_of_renders hs, checkTimestamp_of_le hlength hle]
  tooLarge bytes hlength hs hgt := by
    rw [parse_of_renders hs, checkTimestamp_of_gt hlength hgt]
  rejects hnone := by
    cases hparse : parseTimestampBuffer s with
    | ok t => exact absurd (renders_of_parse hparse) hnone
    | error e => exact ⟨e, rfl⟩

end Clock

/-- 2026-09-17 12:00:00, UTC, whole seconds. -/
def noonBytes : List UInt8 := [0xEA, 0x07, 9, 17, 12, 0, 0, 0, 0, 0, 0, 0, 0, 0, 0, 0]

def noonBody : Text := " 0xEA, 0x07, 9, 17, 12, 0, 0, 0, 0, 0, 0, 0, 0, 0, 0, 0".toList

def noonBuffer (size : Text) : Text :=
  "Buffer".toList ++ ([] ++ '(' :: (size ++ ')' :: ([' '] ++ '{' ::
    (noonBody ++ ([','] ++ '}' :: [])))))

@[reducible] def noonHost : ScriptHost :=
  { asciiHost with
    timestampFromBytes := fun bytes =>
      if bytes = noonBytes then .ok ⟨1789646400⟩ else .error "InvalidData" }

def IsManualSize (token : Text) : Prop := token = "16".toList ∨ token = "0x10".toList

theorem noonBody_renders : RendersBytes noonBytes noonBody :=
  isBytes_iff.mp (parseBytes_split.mp rfl)

theorem noonBuffer_renders {isSize : Text → Prop} {size : Text} (hsize : isSize size) :
    RendersBuffer isSize noonBytes (noonBuffer size) :=
  .mk nofun hsize ⟨[], [], nofun, nofun, (List.append_nil size).symm⟩ (by decide) noonBody_renders
    (.comma nofun) nofun

/-- The size holds the only zeros in front of the parenthesis. -/
theorem count_zero_of_renders {bytes : List UInt8} {s : Text}
    (hs : RendersBuffer IsManualSize bytes s) : (s.takeWhile (· ≠ ')')).count '0' ≠ 1 := by
  cases hs with
  | @mk g token size gap body trailing h hg htoken hsize hgap hbody htrailing hh =>
    obtain ⟨k, l, hk, hl, rfl⟩ := hsize
    have hblank : ∀ {t : Text}, Blank t → ')' ∉ t := by
      intro t ht hmem
      cases ht ')' hmem
    have hsolid : ')' ∉ token := by
      cases htoken with
      | inl h16 =>
        rw [h16]
        decide
      | inr h0x10 =>
        rw [h0x10]
        decide
    let head : Text := "Buffer".toList ++ (g ++ '(' :: (k ++ (token ++ l)))
    have hhead : ∀ c ∈ head, decide (c ≠ ')') = true := by
      intro c hc
      rw [decide_eq_true_iff]
      intro hparen
      rw [hparen] at hc
      simp [head, hblank hg, hblank hk, hblank hl, hsolid] at hc
    have htext : ∀ rest, "Buffer".toList ++ (g ++ '(' :: (k ++ (token ++ l) ++ ')' :: rest)) =
        head ++ ')' :: rest := by
      intro rest
      simp only [head, List.append_assoc, List.cons_append]
    have hcount : head.count '0' = token.count '0' := by
      have hnone : ∀ {t : Text}, Blank t → t.count '0' = 0 := fun ht => count_blank ht (by decide)
      simp [head, List.count_append, hnone hg, hnone hk, hnone hl]
    rw [htext, List.takeWhile_append_of_pos hhead, List.takeWhile_cons_of_neg (by decide),
      List.append_nil, hcount]
    cases htoken with
    | inl h16 =>
      rw [h16]
      decide
    | inr h0x10 =>
      rw [h0x10]
      decide

theorem other_sizes_are_read :
    (¬@ReadsBuffers IsManualSize noonHost (noonBuffer "016".toList)) ∧
      RendersBuffer IsManualSize noonBytes (noonBuffer "16".toList) ∧
      @parseTimestampBuffer noonHost (' ' :: noonBuffer "16".toList) = .error bufferSyntax := by
  refine ⟨fun hreads => ?_, noonBuffer_renders (.inl rfl), rfl⟩
  have hparse : @parseTimestampBuffer noonHost (noonBuffer "016".toList) = .ok ⟨1789646400⟩ := rfl
  have hnone : ¬∃ bytes, bytes.length = 16 ∧
      RendersBuffer IsManualSize bytes (noonBuffer "016".toList) := by
    intro ⟨bytes, _, hs⟩
    exact count_zero_of_renders hs (by decide)
  obtain ⟨e, he⟩ := @ReadsBuffers.rejects _ noonHost _ hreads hnone
  rw [hparse] at he
  cases he

end EcScriptRenderings
