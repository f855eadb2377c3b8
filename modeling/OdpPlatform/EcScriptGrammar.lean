import OdpPlatform.EcScriptBuffers
import OdpPlatform.EcScriptOperands

/-! # test-script: the grammar of calls and verbs

Whitespace may stand around every piece. The parser takes more calls and more verbs than the
grammar has, and one kind of range less. -/
namespace EcScriptGrammar

open CharText EcScript EcScriptParser EcScriptSqueeze EcScriptRelaid EcScriptOperands
open EcScriptBuffers

inductive Argument where
  | nothing | threshold | timer | operand | thresholdOperand | timerOperand | timestamp

def methodTable : Target → List (Text × Argument)
  | .thermal => [
      ("get_temperature".toList, .nothing),
      ("get_rpm".toList, .nothing),
      ("get_min_rpm".toList, .nothing),
      ("get_max_rpm".toList, .nothing),
      ("get_threshold".toList, .threshold),
      ("set_rpm".toList, .operand),
      ("set_threshold".toList, .thresholdOperand)]
  | .battery => [
      ("get_bst".toList, .nothing),
      ("get_bix".toList, .nothing),
      ("set_btp".toList, .operand)]
  | .rtc => [
      ("get_capabilities".toList, .nothing),
      ("get_real_time".toList, .nothing),
      ("set_real_time".toList, .timestamp),
      ("get_wake_status".toList, .timer),
      ("get_expired_timer_wake_policy".toList, .timer),
      ("get_timer_value".toList, .timer),
      ("set_timer_value".toList, .timerOperand),
      ("set_expired_timer_wake_policy".toList, .timerOperand),
      ("clear_wake_status".toList, .timer)]

def thresholdNames : List Text := ["on".toList, "ramping".toList, "max".toList]

def timerNames : List Text := ["ac".toList, "dc".toList]

inductive IsPair (keywords : List Text) : Text → Prop where
  | mk {keyword operand : Text} : trim keyword ∈ keywords → IsOperand (trim operand) →
      IsPair keywords (keyword ++ ',' :: operand)

section Calls

variable [ScriptHost]

def IsArgument : Argument → Text → Prop
  | .nothing, a => a = []
  | .threshold, a => a ∈ thresholdNames
  | .timer, a => a ∈ timerNames
  | .operand, a => IsOperand (trim a)
  | .thresholdOperand, a => IsPair thresholdNames a
  | .timerOperand, a => IsPair timerNames a
  | .timestamp, a => IsTimestamp a

inductive IsMethod (target : Target) : Text → Prop where
  | bare {name : Text} {k : Argument} : (methodTable target).lookup name = some k →
      IsArgument k [] → IsMethod target name
  | applied {name arg : Text} {k : Argument} : (methodTable target).lookup (trim name) = some k →
      IsArgument k (trim arg) → IsMethod target (name ++ '(' :: (arg ++ [')']))

def IsField (w : Text) : Prop := isIdent w = true ∨ w ≠ [] ∧ IsDigits w

inductive IsAccessor : Text → Prop where
  | plain {w : Text} : IsField w → IsAccessor w
  | called {w : Text} : IsField w → IsAccessor (w ++ "()".toList)

inductive IsEmptyAccessor : Text → Prop where
  | plain : IsEmptyAccessor []
  | called : IsEmptyAccessor "()".toList

def dotted (parts : List Text) : Text := parts.flatMap fun p => '.' :: p

inductive HasAccessors : Text → List Text → Prop where
  | mk {target : Target} {t method : Text} {parts : List Text} : trim t = targetName target →
      IsMethod target (trim method) → HasAccessors (t ++ dotted (method :: parts)) parts

def IsCall (src : Text) : Prop :=
  ∃ parts, HasAccessors src parts ∧ ∀ p ∈ parts, IsAccessor (trim p)

/-- A call but for accessors that are missing. -/
def LacksAccessor (src : Text) : Prop :=
  ∃ parts, HasAccessors src parts ∧
    (∀ p ∈ parts, IsAccessor (trim p) ∨ IsEmptyAccessor (trim p)) ∧
    ∃ p ∈ parts, IsEmptyAccessor (trim p)

end Calls

inductive Tail where
  | nothing | operand | range

def verbTable : List (Text × Tail) :=
  [("eq".toList, .operand),
    ("ne".toList, .operand),
    ("gt".toList, .operand),
    ("ge".toList, .operand),
    ("lt".toList, .operand),
    ("le".toList, .operand),
    ("in_range".toList, .range),
    ("is_ok".toList, .nothing),
    ("is_err".toList, .nothing),
    ("ok_eq".toList, .operand),
    ("ok_gt".toList, .operand),
    ("ok_ge".toList, .operand),
    ("ok_lt".toList, .operand),
    ("ok_le".toList, .operand),
    ("ok_in_range".toList, .range)]

def IsTail : Tail → Text → Prop
  | .nothing, t => t = []
  | .operand, t => IsOperand t
  | .range, t => IsRange t

def verbHead (src : Text) : Text := src.takeWhile fun c => !isWhitespace c

def verbTail (src : Text) : Text := trim (src.dropWhile fun c => !isWhitespace c)

def TakesTail : Tail → Text → Prop
  | .nothing, _ => True
  | .operand, t => IsOperand t
  | .range, t => IsRange t ∧ ¬PointedRange t

def IsVerb (src : Text) : Prop :=
  ∃ k, verbTable.lookup (verbHead src) = some k ∧ IsTail k (verbTail src)

def HasLeftover (src : Text) : Prop :=
  verbTable.lookup (verbHead src) = some .nothing ∧ verbTail src ≠ []

def HasPointedRange (src : Text) : Prop :=
  verbTable.lookup (verbHead src) = some .range ∧ PointedRange (verbTail src)

/-- One row of a table, and the branch that reads it. -/
theorem isOk_row {κ β : Type} {accepts : κ → Prop} {name n : Text} {k : κ}
    {rows : List (Text × κ)} {x y : Except String β} (hx : x.isOk = true ↔ accepts k)
    (hy : y.isOk = true ↔ ∃ k, rows.lookup name = some k ∧ accepts k) :
    (if name = n then x else y).isOk = true ↔
      ∃ k', ((n, k) :: rows).lookup name = some k' ∧ accepts k' := by
  rw [List.lookup_cons]
  by_cases hname : name = n
  · rw [if_pos hname, hx, beq_iff_eq.mpr hname]
    simp
  · rw [if_neg hname, hy, beq_eq_false_iff_ne.mpr hname]

theorem isOk_no_row {κ β : Type} {accepts : κ → Prop} {name : Text} {e : String} :
    (.error e : Except String β).isOk = true ↔
      ∃ k, ([] : List (Text × κ)).lookup name = some k ∧ accepts k :=
  iff_of_false nofun nofun

theorem not_mem_of_isIdent {c : Char} (hc : c.isAlphanum = false) (hne : c ≠ '_') {t : Text}
    (ht : isIdent t = true) : c ∉ t := by
  cases t with
  | nil => exact List.not_mem_nil
  | cons d t =>
    rw [isIdent, Bool.and_eq_true, Bool.or_eq_true, beq_iff_eq] at ht
    intro hmem
    rcases List.mem_cons.mp hmem with rfl | hmem
    · rcases ht.1 with halpha | rfl
      · simp [Char.isAlphanum, halpha] at hc
      · exact hne rfl
    · have hword := List.all_eq_true.mp ht.2 c hmem
      simp [hc, hne] at hword

theorem isIdent_of_lookup {target : Target} {name : Text} {k : Argument}
    (hlookup : (methodTable target).lookup name = some k) : isIdent name = true := by
  obtain ⟨before, after, htable, -⟩ := List.lookup_eq_some_iff.mp hlookup
  have hnames : ∀ row ∈ methodTable target, isIdent row.1 = true := by
    cases target <;> decide
  exact hnames (name, k) (by rw [htable]; simp)

theorem isOk_map {β γ : Type} {x : Except String β} {f : β → γ} :
    (f <$> x).isOk = true ↔ x.isOk = true := by
  cases x <;> exact Iff.rfl

theorem isOk_bind {β γ : Type} {x : Except String β} {f : β → Except String γ} :
    (x >>= f).isOk = true ↔ ∃ b, x = .ok b ∧ (f b).isOk = true := by
  cases x with
  | error e => exact iff_of_false nofun nofun
  | ok b => simp [bind, Except.bind]

theorem isOk_iff {β : Type} {x : Except String β} : x.isOk = true ↔ ∃ b, x = .ok b := by
  cases x with
  | error e => exact iff_of_false nofun nofun
  | ok b => exact iff_of_true rfl ⟨b, rfl⟩

theorem isOk_parseThreshold {s shown : Text} :
    (parseThreshold s shown).isOk = true ↔ s ∈ thresholdNames := by
  simp only [parseThreshold, thresholdNames, List.mem_cons, List.not_mem_nil, or_false]
  by_cases hon : s = "on".toList
  · rw [if_pos hon]
    exact iff_of_true rfl (.inl hon)
  by_cases hramping : s = "ramping".toList
  · rw [if_neg hon, if_pos hramping]
    exact iff_of_true rfl (.inr (.inl hramping))
  by_cases hmax : s = "max".toList
  · rw [if_neg hon, if_neg hramping, if_pos hmax]
    exact iff_of_true rfl (.inr (.inr hmax))
  · rw [if_neg hon, if_neg hramping, if_neg hmax]
    exact iff_of_false nofun (not_or.mpr ⟨hon, not_or.mpr ⟨hramping, hmax⟩⟩)

theorem isOk_parseTimer {s : Text} : (parseTimer s).isOk = true ↔ s ∈ timerNames := by
  simp only [parseTimer, timerNames, List.mem_cons, List.not_mem_nil, or_false]
  by_cases hac : s = "ac".toList
  · rw [if_pos hac]
    exact iff_of_true rfl (.inl hac)
  by_cases hdc : s = "dc".toList
  · rw [if_neg hac, if_pos hdc]
    exact iff_of_true rfl (.inr hdc)
  · rw [if_neg hac, if_neg hdc]
    exact iff_of_false nofun (not_or.mpr ⟨hac, hdc⟩)

section Arguments

variable {α : Type}

section Pairs

variable [HostDecimal α]

theorem isOk_pair {κ : Type} {keywords : List Text} {read : Text → Except String κ} {e : String}
    (hread : ∀ k, (read k).isOk = true ↔ trim k ∈ keywords) (hcomma : ∀ w ∈ keywords, ',' ∉ w)
    {s : Text} :
    (match splitOnce [','] s with
      | none => .error e
      | some (k, v) => do
        let a ← read k
        let b ← parseOperand (trim v)
        pure (a, b) : Except String (κ × Operand α)).isOk = true ↔ IsPair keywords s := by
  constructor
  · intro h
    cases hsplit : splitOnce [','] s with
    | none =>
      rw [hsplit] at h
      cases h
    | some x =>
      obtain ⟨k, v⟩ := x
      rw [hsplit] at h
      obtain ⟨a, ha, hrest⟩ := isOk_bind.mp h
      obtain ⟨b, hb, -⟩ := isOk_bind.mp hrest
      have hkeyword := (hread k).mp (isOk_iff.mpr ⟨a, ha⟩)
      have hoperand := isOk_parseOperand.mp (isOk_iff.mpr ⟨b, hb⟩)
      rw [trim_trim] at hoperand
      rw [append_of_splitOnce hsplit, List.append_assoc]
      exact .mk hkeyword hoperand
  · intro h
    cases h with
    | @mk k v hkeyword hoperand =>
      rw [splitOnce_single (not_mem_of_trim (by decide) (hcomma _ hkeyword))]
      obtain ⟨a, ha⟩ := isOk_iff.mp ((hread k).mpr hkeyword)
      rw [← trim_trim] at hoperand
      obtain ⟨b, hb⟩ := isOk_iff.mp (isOk_parseOperand (α := α).mpr hoperand)
      exact isOk_bind.mpr ⟨a, ha, isOk_bind.mpr ⟨b, hb, rfl⟩⟩

theorem isOk_splitTimerOperand {name s : Text} :
    (splitTimerOperand name s : Except String (AcpiTimerId × Operand α)).isOk = true ↔
      IsPair timerNames s :=
  isOk_pair (fun _ => isOk_parseTimer) (by decide)

theorem isOk_splitThresholdOperand {s : Text} :
    (splitThresholdOperand s : Except String (Threshold × Operand α)).isOk = true ↔
      IsPair thresholdNames s :=
  isOk_pair (fun _ => isOk_parseThreshold) (by decide)

end Pairs

variable [ScriptHost]

theorem isOk_noArg {name : Text} {arg : Option Text} {m : Method α} :
    (noArg name arg m).isOk = true ↔ IsArgument .nothing (arg.getD []) := by
  match arg with
  | none => exact iff_of_true rfl rfl
  | some [] => exact iff_of_true rfl rfl
  | some (c :: a) => exact iff_of_false nofun nofun

theorem not_isArgument_nil {k : Argument} (hk : k ≠ .nothing) : ¬IsArgument k [] := by
  have hpair : ∀ keywords, ¬IsPair keywords [] := by
    intro keywords h
    generalize hnil : ([] : Text) = t at h
    cases h
    simp at hnil
  cases k with
  | nothing => exact absurd rfl hk
  | threshold =>
    rw [IsArgument]
    decide
  | timer =>
    rw [IsArgument]
    decide
  | operand => exact fun h => h.ne_nil rfl
  | thresholdOperand => exact hpair thresholdNames
  | timerOperand => exact hpair timerNames
  | timestamp =>
    rintro ⟨bytes, h, -⟩
    generalize hnil : ([] : Text) = t at h
    cases h
    simp at hnil

/-- An argument that is read by `read`, which takes the texts of its kind. -/
theorem isOk_readArg {β : Type} {k : Argument} {name : Text} {arg : Option Text}
    {read : Text → Except String β} {m : β → Method α} (hk : k ≠ .nothing)
    (hread : ∀ a, (read a).isOk = true ↔ IsArgument k a) :
    (readArg name arg read m).isOk = true ↔ IsArgument k (arg.getD []) := by
  match arg with
  | none => exact iff_of_false nofun (not_isArgument_nil hk)
  | some [] => exact iff_of_false nofun (not_isArgument_nil hk)
  | some (c :: a) => exact isOk_map.trans (hread (c :: a))

variable [HostDecimal α]

theorem isOk_buildThermal {name : Text} {arg : Option Text} :
    (buildThermal name arg : Except String (Method α)).isOk = true ↔
      ∃ k, (methodTable .thermal).lookup name = some k ∧ IsArgument k (arg.getD []) := by
  rw [buildThermal, methodTable]
  refine isOk_row isOk_noArg ?_
  refine isOk_row isOk_noArg ?_
  refine isOk_row isOk_noArg ?_
  refine isOk_row isOk_noArg ?_
  refine isOk_row (isOk_readArg nofun fun _ => isOk_parseThreshold) ?_
  refine isOk_row (isOk_readArg nofun fun _ => isOk_parseOperand) ?_
  refine isOk_row (isOk_readArg nofun fun _ => isOk_splitThresholdOperand) ?_
  exact isOk_no_row

theorem isOk_buildBattery {name : Text} {arg : Option Text} :
    (buildBattery name arg : Except String (Method α)).isOk = true ↔
      ∃ k, (methodTable .battery).lookup name = some k ∧ IsArgument k (arg.getD []) := by
  rw [buildBattery, methodTable]
  refine isOk_row isOk_noArg ?_
  refine isOk_row isOk_noArg ?_
  refine isOk_row (isOk_readArg nofun fun _ => isOk_parseOperand) ?_
  exact isOk_no_row

theorem isOk_buildRtc {name : Text} {arg : Option Text} :
    (buildRtc name arg : Except String (Method α)).isOk = true ↔
      ∃ k, (methodTable .rtc).lookup name = some k ∧ IsArgument k (arg.getD []) := by
  rw [buildRtc, methodTable]
  refine isOk_row isOk_noArg ?_
  refine isOk_row isOk_noArg ?_
  refine isOk_row (isOk_readArg nofun fun _ => isOk_parseTimestampBuffer) ?_
  refine isOk_row (isOk_readArg nofun fun _ => isOk_parseTimer) ?_
  refine isOk_row (isOk_readArg nofun fun _ => isOk_parseTimer) ?_
  refine isOk_row (isOk_readArg nofun fun _ => isOk_parseTimer) ?_
  refine isOk_row (isOk_readArg nofun fun _ => isOk_splitTimerOperand) ?_
  refine isOk_row (isOk_readArg nofun fun _ => isOk_splitTimerOperand) ?_
  refine isOk_row (isOk_readArg nofun fun _ => isOk_parseTimer) ?_
  exact isOk_no_row

theorem isOk_buildMethod {target : Target} {name : Text} {arg : Option Text} :
    (buildMethod target name arg : Except String (Method α)).isOk = true ↔
      ∃ k, (methodTable target).lookup name = some k ∧ IsArgument k (arg.getD []) := by
  cases target with
  | thermal => exact isOk_buildThermal
  | battery => exact isOk_buildBattery
  | rtc => exact isOk_buildRtc

theorem isOk_method {target : Target} {s : Text} :
    (splitCall s >>= fun x => (buildMethod target x.1 x.2 : Except String (Method α))).isOk = true ↔
      IsMethod target s := by
  rw [isOk_bind]
  constructor
  · rintro ⟨⟨name, arg⟩, hsplit, hbuild⟩
    obtain ⟨k, hlookup, hargument⟩ := isOk_buildMethod.mp hbuild
    rw [splitCall] at hsplit
    split at hsplit
    · cases hsplit
      exact .bare hlookup hargument
    next name rest hopen =>
      split at hsplit
      · split at hsplit <;> cases hsplit
      next arg trailing hclose =>
        split at hsplit
        · cases hsplit
        next hnil =>
          rw [not_not] at hnil
          cases hsplit
          rw [append_of_splitOnce hopen, append_of_rsplitOnce hclose, hnil, List.append_assoc]
          exact .applied hlookup hargument
  · intro h
    cases h with
    | bare hlookup hargument =>
      have hnone : splitOnce ['('] s = none := by
        rw [Option.eq_none_iff_forall_ne_some]
        rintro ⟨a, b⟩ hsplit
        apply not_mem_of_isIdent (c := '(') rfl (by decide) (isIdent_of_lookup hlookup)
        rw [append_of_splitOnce hsplit]
        simp
      refine ⟨(s, none), ?_, isOk_buildMethod.mpr ⟨_, hlookup, hargument⟩⟩
      rw [splitCall, hnone]
    | @applied name arg k hlookup hargument =>
      have hopen := splitOnce_single (not_mem_of_trim (by decide)
        (not_mem_of_isIdent (c := '(') rfl (by decide) (isIdent_of_lookup hlookup))) (arg ++ [')'])
      refine ⟨(trim name, some (trim arg)), ?_, isOk_buildMethod.mpr ⟨_, hlookup, hargument⟩⟩
      rw [splitCall, hopen]
      dsimp only
      rw [rsplitOnce_concat]
      rfl

end Arguments

/-- No point or parenthesis of the text counts at the depth. -/
def Enclosed (depth : ℕ) (p : Text) : Prop :=
  ∀ t, splitDots depth (p ++ t) = (splitDots depth t).map fun x => (p ++ x.1, x.2)

theorem splitDots_cons {depth : ℕ} {c : Char} (hc : c ≠ '(' ∧ c ≠ ')' ∧ (c = '.' → depth ≠ 0))
    (t : Text) : splitDots depth (c :: t) = (splitDots depth t).map fun x => (c :: x.1, x.2) := by
  rw [splitDots, if_neg hc.1, if_neg hc.2.1, if_neg fun h => hc.2.2 h.1 h.2]

theorem enclosed_nil (depth : ℕ) : Enclosed depth [] := by
  intro t
  simp

theorem Enclosed.append {depth : ℕ} {p q : Text} (hp : Enclosed depth p) (hq : Enclosed depth q) :
    Enclosed depth (p ++ q) := by
  intro t
  rw [List.append_assoc, hp, hq, Option.map_map]
  congr 1
  funext x
  simp

theorem Enclosed.cons {depth : ℕ} {c : Char} (hc : c ≠ '(' ∧ c ≠ ')' ∧ (c = '.' → depth ≠ 0))
    {p : Text} (hp : Enclosed depth p) : Enclosed depth (c :: p) := by
  intro t
  rw [List.cons_append, splitDots_cons hc, hp, Option.map_map]
  rfl

theorem enclosed_of_forall {depth : ℕ} {p : Text}
    (hp : ∀ c ∈ p, c ≠ '(' ∧ c ≠ ')' ∧ (c = '.' → depth ≠ 0)) : Enclosed depth p := by
  induction p with
  | nil => exact enclosed_nil depth
  | cons c p ih =>
    rw [List.forall_mem_cons] at hp
    exact (ih hp.2).cons hp.1

theorem Enclosed.parens {depth : ℕ} {p : Text} (hp : Enclosed (depth + 1) p) :
    Enclosed depth ('(' :: (p ++ [')'])) := by
  intro t
  rw [List.cons_append, List.append_assoc, splitDots, if_pos rfl, hp, List.singleton_append,
    splitDots, if_neg (by decide), if_pos rfl, if_neg (Nat.succ_ne_zero depth), Nat.add_sub_cancel,
    Option.map_map, Option.map_map]
  congr 1
  funext x
  simp

theorem enclosed_blank {depth : ℕ} {g : Text} (hg : Blank g) : Enclosed depth g := by
  apply enclosed_of_forall
  intro c hc
  have hwhite := hg c hc
  refine ⟨?_, ?_, ?_⟩
  · rintro rfl
    cases hwhite
  · rintro rfl
    cases hwhite
  · rintro rfl
    cases hwhite

theorem Enclosed.of_trim {depth : ℕ} {p : Text} (hp : Enclosed depth (trim p)) :
    Enclosed depth p := by
  obtain ⟨g, h, hg, hh, ht⟩ := eq_trim p
  rw [ht]
  exact (enclosed_blank hg).append (hp.append (enclosed_blank hh))

/-- The pieces between the points make up the text. -/
theorem eq_dotted {depth : ℕ} {src t : Text} {parts : List Text}
    (hsplit : splitDots depth src = some (t, parts)) : src = t ++ dotted parts := by
  induction src generalizing depth t parts with
  | nil =>
    rw [splitDots] at hsplit
    split at hsplit
    · cases hsplit
      rfl
    · cases hsplit
  | cons c src ih =>
    have hcons : ∀ {d : ℕ}, (splitDots d src).map (fun x => (c :: x.1, x.2)) = some (t, parts) →
        c :: src = t ++ dotted parts := by
      intro d h
      obtain ⟨⟨u, ps⟩, hrest, heq⟩ := Option.map_eq_some_iff.mp h
      cases heq
      rw [ih hrest]
      rfl
    rw [splitDots] at hsplit
    split at hsplit
    · exact hcons hsplit
    · split at hsplit
      · split at hsplit
        · cases hsplit
        · exact hcons hsplit
      · split at hsplit
        next hpoint =>
          obtain ⟨⟨u, ps⟩, hrest, heq⟩ := Option.map_eq_some_iff.mp hsplit
          cases heq
          rw [ih hrest, hpoint.1]
          rfl
        · exact hcons hsplit

/-- Enclosed pieces come apart at the points between them. -/
theorem splitDots_dotted {t : Text} {parts : List Text} (ht : Enclosed 0 t)
    (hparts : ∀ p ∈ parts, Enclosed 0 p) : splitDots 0 (t ++ dotted parts) = some (t, parts) := by
  induction parts generalizing t with
  | nil =>
    rw [ht]
    simp [dotted, splitDots]
  | cons p parts ih =>
    rw [List.forall_mem_cons] at hparts
    have hpoint : dotted (p :: parts) = '.' :: (p ++ dotted parts) := rfl
    rw [ht, hpoint, splitDots, if_neg (by decide), if_neg (by decide), if_pos ⟨rfl, rfl⟩,
      ih hparts.1 hparts.2]
    simp

theorem enclosed_of_not_mem {depth : ℕ} {p : Text} (hopen : '(' ∉ p) (hclose : ')' ∉ p)
    (hpoint : depth = 0 → '.' ∉ p) : Enclosed depth p := by
  apply enclosed_of_forall
  intro c hc
  refine ⟨ne_of_mem_of_not_mem hc hopen, ne_of_mem_of_not_mem hc hclose, ?_⟩
  rintro rfl hdepth
  exact hpoint hdepth hc

theorem enclosed_of_isIdent {depth : ℕ} {p : Text} (hp : isIdent p = true) : Enclosed depth p :=
  enclosed_of_not_mem (not_mem_of_isIdent rfl (by decide) hp)
    (not_mem_of_isIdent rfl (by decide) hp) fun _ => not_mem_of_isIdent rfl (by decide) hp

theorem enclosed_of_isNumber {depth : ℕ} {p : Text} (hp : IsNumber p) : Enclosed (depth + 1) p := by
  have hchars : ∀ c, numberChar c = false → c ∉ p := by
    intro c hc hmem
    rw [List.all_eq_true.mp hp.all c hmem] at hc
    cases hc
  exact enclosed_of_not_mem (hchars '(' rfl) (hchars ')' rfl) nofun

theorem enclosed_of_isOperand {depth : ℕ} {p : Text} (hp : IsOperand p) : Enclosed (depth + 1) p := by
  rcases hp with hnumber | hident
  · exact enclosed_of_isNumber hnumber
  · exact enclosed_of_isIdent hident

theorem enclosed_of_isPair {depth : ℕ} {keywords : List Text}
    (hkeywords : ∀ w ∈ keywords, isIdent w = true) {p : Text} (hp : IsPair keywords p) :
    Enclosed (depth + 1) p := by
  cases hp with
  | mk hkeyword hoperand =>
    exact (enclosed_of_isIdent (hkeywords _ hkeyword)).of_trim.append
      ((enclosed_of_isOperand hoperand).of_trim.cons (by simp))

theorem not_mem_of_bytes {c : Char} (hc : isWhitespace c = false) (hpunct : c.isAlphanum = false)
    (hcomma : c ≠ ',') {p : Text} {bytes : List UInt8} (hp : IsBytes p bytes) : c ∉ p := by
  induction hp with
  | last hb => exact not_mem_of_byte hc hpunct hb
  | next hb _ ih =>
    rw [List.mem_append, List.mem_cons, not_or, not_or]
    exact ⟨not_mem_of_byte hc hpunct hb, hcomma, ih⟩

theorem not_mem_of_initializer {c : Char} (hc : isWhitespace c = false)
    (hpunct : c.isAlphanum = false) (hcomma : c ≠ ',') {p : Text} {bytes : List UInt8}
    (hp : IsInitializer p bytes) : c ∉ p := by
  cases hp with
  | plain hbytes => exact not_mem_of_bytes hc hpunct hcomma hbytes
  | trailing hbytes =>
    rw [List.mem_append, List.mem_singleton, not_or]
    exact ⟨not_mem_of_bytes hc hpunct hcomma hbytes, hcomma⟩

theorem enclosed_of_isBuffer {depth : ℕ} {p : Text} {bytes : List UInt8} (hp : IsBuffer p bytes) :
    Enclosed (depth + 1) p := by
  cases hp with
  | @mk g size rest body _ hg hsize hrest hbody =>
    have hrest' : ∀ c, isWhitespace c = false → c.isAlphanum = false → c ≠ ',' → c ≠ '{' →
        c ≠ '}' → c ∉ rest := by
      intro c hc hpunct hcomma hleft hright
      apply not_mem_of_trim hc
      rw [hrest, List.mem_cons, List.mem_append, List.mem_singleton, not_or, not_or]
      exact ⟨hleft, not_mem_of_trim hc (not_mem_of_initializer hc hpunct hcomma hbody), hright⟩
    have hsplit : g ++ '(' :: (size ++ ')' :: rest) = g ++ ('(' :: (size ++ [')']) ++ rest) := by
      simp
    rw [hsplit]
    refine (enclosed_of_isIdent rfl).append ((enclosed_blank hg).append (Enclosed.append ?_ ?_))
    · apply Enclosed.parens
      exact enclosed_of_not_mem (not_mem_of_byte (by decide) (by decide) hsize)
        (not_mem_of_byte (by decide) (by decide) hsize) nofun
    · refine enclosed_of_not_mem ?_ ?_ nofun
      · exact hrest' '(' rfl rfl (by decide) (by decide) (by decide)
      · exact hrest' ')' rfl rfl (by decide) (by decide) (by decide)

theorem enclosed_of_isField {p : Text} (hp : IsField p) : Enclosed 0 p := by
  rcases hp with hident | ⟨-, hdigits⟩
  · exact enclosed_of_isIdent hident
  · have hchars : ∀ c, c.isDigit = false → c ∉ p := by
      intro c hc hmem
      rw [hdigits c hmem] at hc
      cases hc
    exact enclosed_of_not_mem (hchars '(' rfl) (hchars ')' rfl) fun _ => hchars '.' rfl

theorem enclosed_of_isAccessor {p : Text} (hp : IsAccessor p) : Enclosed 0 p := by
  cases hp with
  | plain hfield => exact enclosed_of_isField hfield
  | called hfield => exact (enclosed_of_isField hfield).append (enclosed_nil 1).parens

theorem enclosed_of_isEmptyAccessor {p : Text} (hp : IsEmptyAccessor p) : Enclosed 0 p := by
  cases hp with
  | plain => exact enclosed_nil 0
  | called => exact (enclosed_nil 1).parens

theorem enclosed_targetName (target : Target) : Enclosed 0 (targetName target) := by
  cases target <;> exact enclosed_of_isIdent rfl

section Pieces

variable [ScriptHost]

theorem enclosed_of_isArgument {k : Argument} {a : Text} (ha : IsArgument k a) : Enclosed 1 a := by
  cases k with
  | nothing =>
    rw [show a = [] from ha]
    exact enclosed_nil 1
  | threshold =>
    have hkeywords : ∀ w ∈ thresholdNames, isIdent w = true := by decide
    exact enclosed_of_isIdent (hkeywords a ha)
  | timer =>
    have hkeywords : ∀ w ∈ timerNames, isIdent w = true := by decide
    exact enclosed_of_isIdent (hkeywords a ha)
  | operand => exact (enclosed_of_isOperand ha).of_trim
  | thresholdOperand => exact enclosed_of_isPair (by decide) ha
  | timerOperand => exact enclosed_of_isPair (by decide) ha
  | timestamp =>
    obtain ⟨bytes, hbuffer, -⟩ := ha
    exact enclosed_of_isBuffer hbuffer

theorem enclosed_of_isMethod {target : Target} {m : Text} (hm : IsMethod target m) :
    Enclosed 0 m := by
  cases hm with
  | bare hlookup => exact enclosed_of_isIdent (isIdent_of_lookup hlookup)
  | applied hlookup hargument =>
    exact (enclosed_of_isIdent (isIdent_of_lookup hlookup)).of_trim.append
      (enclosed_of_isArgument hargument).of_trim.parens

/-- A call comes apart at its points. -/
theorem splitDots_of_hasAccessors {src : Text} {parts : List Text} (hsrc : HasAccessors src parts)
    (hparts : ∀ p ∈ parts, IsAccessor (trim p) ∨ IsEmptyAccessor (trim p)) :
    ∃ target t method, trim t = targetName target ∧ IsMethod target (trim method) ∧
      splitDots 0 src = some (t, method :: parts) := by
  cases hsrc with
  | @mk target t method _ ht hmethod =>
    refine ⟨target, t, method, ht, hmethod, ?_⟩
    apply splitDots_dotted (ht ▸ enclosed_targetName target).of_trim
    rw [List.forall_mem_cons]
    refine ⟨(enclosed_of_isMethod hmethod).of_trim, fun p hp => ?_⟩
    rcases hparts p hp with haccessor | hempty
    · exact (enclosed_of_isAccessor haccessor).of_trim
    · exact (enclosed_of_isEmptyAccessor hempty).of_trim

end Pieces

theorem isAccessor_iff {w : Text} : isAccessor w = true ↔ IsField w ∨ w = [] := by
  rw [isAccessor, Bool.or_eq_true, List.all_eq_true, IsField]
  by_cases hnil : w = []
  · subst hnil
    exact iff_of_true (.inr (List.forall_mem_nil _)) (.inr rfl)
  · simp only [hnil, or_false, ne_eq, not_false_eq_true, true_and]
    rfl

theorem not_isField_called {w : Text} : ¬IsField (w ++ "()".toList) := by
  have hmem : '(' ∈ w ++ "()".toList := List.mem_append_right w (by decide)
  rintro (hident | ⟨-, hdigits⟩)
  · exact not_mem_of_isIdent rfl (by decide) hident hmem
  · cases hdigits '(' hmem

/-- The parser takes the empty accessor as one of no digits. -/
theorem isAccessor_accessor {p : Text} :
    isAccessor (accessor p) = true ↔ IsAccessor (trim p) ∨ IsEmptyAccessor (trim p) := by
  rw [isAccessor_iff, accessor]
  generalize trim p = t
  cases hstrip : stripSuffix "()".toList t with
  | some w =>
    rw [Option.getD_some]
    have ht := stripSuffix_eq_some.mp hstrip
    constructor
    · rw [ht]
      rintro (hfield | rfl)
      · exact .inl (.called hfield)
      · exact .inr .called
    · rintro (haccessor | hempty)
      · cases haccessor with
        | plain hfield => exact absurd (ht ▸ hfield) not_isField_called
        | called hfield => exact .inl (List.append_cancel_right ht ▸ hfield)
      · cases hempty with
        | plain => simp at ht
        | called => exact .inr (List.self_eq_append_left.mp ht)
  | none =>
    rw [Option.getD_none]
    have hplain : ∀ w, t ≠ w ++ "()".toList := by
      intro w ht
      rw [stripSuffix_eq_some.mpr ht] at hstrip
      cases hstrip
    constructor
    · rintro (hfield | rfl)
      · exact .inl (.plain hfield)
      · exact .inr .plain
    · rintro (haccessor | hempty)
      · cases haccessor with
        | plain hfield => exact .inl hfield
        | called => exact absurd rfl (hplain _)
      · cases hempty with
        | plain => exact .inr rfl
        | called => exact absurd rfl (hplain [])

theorem not_isField_nil : ¬IsField [] := by
  rintro (hident | ⟨hne, -⟩)
  · cases hident
  · exact hne rfl

theorem not_isAccessor_of_empty {p : Text} (hp : IsEmptyAccessor p) : ¬IsAccessor p := by
  intro haccessor
  cases haccessor with
  | plain hfield =>
    cases hp with
    | plain => exact not_isField_nil hfield
    | called => exact not_isField_called (w := []) hfield
  | @called w hfield =>
    generalize ht : w ++ "()".toList = t at hp
    cases hp with
    | plain => simp at ht
    | called =>
      rw [List.self_eq_append_left.mp ht.symm] at hfield
      exact not_isField_nil hfield

section Parser

variable {α : Type} [HostDecimal α]

theorem isOk_needOperand {v tail : Text} :
    (needOperand v tail : Except String (Operand α)).isOk = true ↔ IsOperand (trim tail) := by
  by_cases hnil : tail = []
  · rw [needOperand, if_pos hnil, hnil]
    exact iff_of_false nofun fun h => h.ne_nil rfl
  · rw [needOperand, if_neg hnil]
    exact isOk_parseOperand

theorem isOk_needRange {v tail : Text} :
    (needRange v tail : Except String (α × α × Bool)).isOk = true ↔
      IsRange (trim tail) ∧ ¬PointedRange (trim tail) := by
  by_cases hnil : tail = []
  · rw [needRange, if_pos hnil, hnil]
    exact iff_of_false nofun fun h => h.1.ne_nil rfl
  · rw [needRange, if_neg hnil]
    exact isOk_parseRange

theorem isOk_verbOf {head tail : Text} :
    (verbOf head tail : Except String (Verb α)).isOk = true ↔
      ∃ k, verbTable.lookup head = some k ∧ TakesTail k (trim tail) := by
  rw [verbOf, verbTable]
  refine isOk_row (isOk_map.trans isOk_needOperand) ?_
  refine isOk_row (isOk_map.trans isOk_needOperand) ?_
  refine isOk_row (isOk_map.trans isOk_needOperand) ?_
  refine isOk_row (isOk_map.trans isOk_needOperand) ?_
  refine isOk_row (isOk_map.trans isOk_needOperand) ?_
  refine isOk_row (isOk_map.trans isOk_needOperand) ?_
  refine isOk_row (isOk_map.trans isOk_needRange) ?_
  refine isOk_row (iff_of_true rfl trivial) ?_
  refine isOk_row (iff_of_true rfl trivial) ?_
  refine isOk_row (isOk_map.trans isOk_needOperand) ?_
  refine isOk_row (isOk_map.trans isOk_needOperand) ?_
  refine isOk_row (isOk_map.trans isOk_needOperand) ?_
  refine isOk_row (isOk_map.trans isOk_needOperand) ?_
  refine isOk_row (isOk_map.trans isOk_needOperand) ?_
  refine isOk_row (isOk_map.trans isOk_needRange) ?_
  exact isOk_no_row

theorem isOk_parseVerb {src : Text} :
    (parseVerb src : Except String (Verb α)).isOk = true ↔
      ∃ k, verbTable.lookup (verbHead src) = some k ∧ TakesTail k (verbTail src) := by
  have hsplit := List.takeWhile_append_dropWhile (p := fun c => !isWhitespace c) (l := src)
  rw [parseVerb, splitWhitespaceOnce, verbHead, verbTail]
  cases hdrop : src.dropWhile fun c => !isWhitespace c with
  | nil =>
    rw [hdrop, List.append_nil] at hsplit
    rw [hsplit]
    exact isOk_verbOf
  | cons c rest =>
    have hc := List.head?_dropWhile_not (fun c => !isWhitespace c) src
    rw [hdrop] at hc
    dsimp only
    rw [trim_white (by simpa using hc), isOk_verbOf, trim_trim]

theorem parseTarget_eq_ok {s : Text} {target : Target} :
    parseTarget s = .ok target ↔ s = targetName target := by
  constructor
  · intro h
    rw [parseTarget] at h
    split at h
    next hs =>
      cases h
      exact hs
    · split at h
      next hs =>
        cases h
        exact hs
      · split at h
        next hs =>
          cases h
          exact hs
        · cases h
  · rintro rfl
    cases target <;> rfl

variable [ScriptHost]

theorem isOk_parseCall {src : Text} :
    (parseCall src : Except String (Call α)).isOk = true ↔
      ∃ parts, HasAccessors src parts ∧
        ∀ p ∈ parts, IsAccessor (trim p) ∨ IsEmptyAccessor (trim p) := by
  rw [parseCall]
  constructor
  · intro h
    cases hsplit : splitDots 0 src with
    | none =>
      rw [hsplit] at h
      cases h
    | some x =>
      rw [hsplit] at h
      obtain ⟨t, parts⟩ := x
      cases parts with
      | nil => cases h
      | cons method parts =>
        obtain ⟨target, htarget, hrest⟩ := isOk_bind.mp h
        obtain ⟨⟨name, arg⟩, hcall, hbuilt⟩ := isOk_bind.mp hrest
        obtain ⟨m, hm, hprojection⟩ := isOk_bind.mp hbuilt
        have hmethod : IsMethod target (trim method) :=
          isOk_method.mp (isOk_bind.mpr ⟨_, hcall, isOk_iff.mpr ⟨m, hm⟩⟩)
        rw [eq_dotted hsplit]
        refine ⟨parts, .mk (parseTarget_eq_ok.mp htarget) hmethod, fun p hp => ?_⟩
        dsimp only at hprojection
        split at hprojection
        · cases hprojection
        next hfind =>
          have haccessor := List.find?_eq_none.mp hfind (accessor p) (List.mem_map_of_mem hp)
          exact isAccessor_accessor.mp (by simpa using haccessor)
  · rintro ⟨parts, hsrc, hparts⟩
    obtain ⟨target, t, method, ht, hmethod, hsplit⟩ := splitDots_of_hasAccessors hsrc hparts
    obtain ⟨call, hcall, hbuilt⟩ := isOk_bind.mp (isOk_method (α := α).mpr hmethod)
    obtain ⟨m, hm⟩ := isOk_iff.mp hbuilt
    have hfind : (parts.map accessor).find? (fun p => !isAccessor p) = none := by
      rw [List.find?_eq_none]
      intro p hp
      obtain ⟨q, hq, rfl⟩ := List.mem_map.mp hp
      simpa using isAccessor_accessor.mpr (hparts q hq)
    rw [hsplit]
    refine isOk_bind.mpr ⟨target, parseTarget_eq_ok.mpr ht, isOk_bind.mpr ⟨call, hcall, ?_⟩⟩
    refine isOk_bind.mpr ⟨m, hm, ?_⟩
    dsimp only
    rw [hfind]
    rfl

end Parser

section Exactness

variable [ScriptHost]

/-- The texts behind the points of a call are determined. -/
theorem hasAccessors_unique {src : Text} {parts parts' : List Text}
    (h : HasAccessors src parts) (h' : HasAccessors src parts')
    (hparts : ∀ p ∈ parts, IsAccessor (trim p) ∨ IsEmptyAccessor (trim p))
    (hparts' : ∀ p ∈ parts', IsAccessor (trim p) ∨ IsEmptyAccessor (trim p)) : parts = parts' := by
  obtain ⟨_, t, method, -, -, hsplit⟩ := splitDots_of_hasAccessors h hparts
  obtain ⟨_, t', method', -, -, hsplit'⟩ := splitDots_of_hasAccessors h' hparts'
  rw [hsplit] at hsplit'
  cases hsplit'
  rfl

theorem parseCall_exact_iff {α : Type} [HostDecimal α] {src : Text} :
    ((parseCall src : Except String (Call α)).isOk = true ↔ IsCall src) ↔ ¬LacksAccessor src := by
  rw [isOk_parseCall]
  constructor
  · rintro hexact ⟨parts, hsrc, hparts, p, hp, hempty⟩
    obtain ⟨parts', hsrc', hparts'⟩ := hexact.mp ⟨parts, hsrc, hparts⟩
    obtain rfl := hasAccessors_unique hsrc hsrc' hparts fun q hq => .inl (hparts' q hq)
    exact not_isAccessor_of_empty hempty (hparts' p hp)
  · intro hnone
    constructor
    · rintro ⟨parts, hsrc, hparts⟩
      refine ⟨parts, hsrc, fun p hp => (hparts p hp).resolve_right fun hempty => ?_⟩
      exact hnone ⟨parts, hsrc, hparts, p, hp, hempty⟩
    · rintro ⟨parts, hsrc, hparts⟩
      exact ⟨parts, hsrc, fun p hp => .inl (hparts p hp)⟩

end Exactness

theorem parseVerb_exact_iff {α : Type} [HostDecimal α] {src : Text} :
    ((parseVerb src : Except String (Verb α)).isOk = true ↔ IsVerb src) ↔
      ¬HasLeftover src ∧ ¬HasPointedRange src := by
  rw [isOk_parseVerb]
  constructor
  · intro hexact
    constructor
    · rintro ⟨hlookup, hleft⟩
      obtain ⟨k, hlookup', htail⟩ := hexact.mp ⟨.nothing, hlookup, trivial⟩
      rw [hlookup] at hlookup'
      cases hlookup'
      exact hleft htail
    · rintro ⟨hlookup, hpointed⟩
      obtain ⟨k, hlookup', htail⟩ := hexact.mpr ⟨.range, hlookup, hpointed.isRange⟩
      rw [hlookup] at hlookup'
      cases hlookup'
      exact htail.2 hpointed
  · rintro ⟨hleftover, hpointed⟩
    have htails : ∀ k, verbTable.lookup (verbHead src) = some k →
        (TakesTail k (verbTail src) ↔ IsTail k (verbTail src)) := by
      intro k hlookup
      cases k with
      | nothing =>
        refine iff_of_true trivial ?_
        by_contra hleft
        exact hleftover ⟨hlookup, hleft⟩
      | operand => exact Iff.rfl
      | range => exact and_iff_left fun h => hpointed ⟨hlookup, h⟩
    constructor
    · rintro ⟨k, hlookup, htail⟩
      exact ⟨k, hlookup, (htails k hlookup).mp htail⟩
    · rintro ⟨k, hlookup, htail⟩
      exact ⟨k, hlookup, (htails k hlookup).mpr htail⟩

/-- The parser agrees with the grammar on a call unless an accessor is missing, and on a verb
unless text is left behind `is_ok` or `is_err` or the lower end of a range keeps its point. -/
theorem parser_exact_iff {α : Type} [HostDecimal α] [ScriptHost] (src : Text) :
    (((parseCall src : Except String (Call α)).isOk = true ↔ IsCall src) ↔ ¬LacksAccessor src) ∧
      (((parseVerb src : Except String (Verb α)).isOk = true ↔ IsVerb src) ↔
        ¬HasLeftover src ∧ ¬HasPointedRange src) :=
  ⟨parseCall_exact_iff, parseVerb_exact_iff⟩

/-- A point without an accessor and text behind `is_ok` are taken; a range is not. -/
theorem point_and_leftover_taken :
    (parseCall "thermal.get_rpm.".toList : Except String (Call Float)) =
        .ok ⟨.thermal, .getRpm, [""]⟩ ∧
      ¬IsCall "thermal.get_rpm.".toList ∧
      (parseVerb "is_ok 5".toList : Except String (Verb Float)) = .ok .isOk ∧
      ¬IsVerb "is_ok 5".toList ∧
      (parseVerb "in_range 1...-2".toList : Except String (Verb Float)).isOk = false ∧
      IsVerb "in_range 1...-2".toList := by
  have hcall : (parseCall "thermal.get_rpm.".toList : Except String (Call Float)) =
      .ok ⟨.thermal, .getRpm, [""]⟩ := rfl
  have hsrc : HasAccessors ("thermal".toList ++ dotted ["get_rpm".toList, []]) [[]] :=
    @HasAccessors.mk _ .thermal _ _ _ rfl (.bare rfl rfl)
  have hlacks : LacksAccessor "thermal.get_rpm.".toList := by
    refine ⟨[[]], hsrc, ?_, [], List.mem_singleton_self _, .plain⟩
    intro p hp
    rw [List.mem_singleton.mp hp]
    exact .inr .plain
  have hnumber : ∀ t : Text, (parseF64 t : Option Float).isSome = true → IsNumber t :=
    fun t => isSome_parseF64.mp
  refine ⟨hcall, fun h => ?_, rfl, ?_, rfl, .range, rfl, ?_⟩
  · exact parseCall_exact_iff.mp (iff_of_true (by rw [hcall]; rfl) h) hlacks
  · rintro ⟨k, hlookup, htail⟩
    cases hlookup
    cases htail
  · exact @IsRange.exclusive "1.".toList "-2".toList (hnumber _ rfl) (hnumber _ rfl)

end EcScriptGrammar
