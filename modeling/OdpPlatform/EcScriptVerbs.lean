import Mathlib
import OdpPlatform.EcScriptMessages

/-! # test-script: the results that a verb accepts

The operators of the numbers are those of an order; what a verb then accepts is said without the
executor, by the kinds of the two values and their relation. -/
namespace EcScript

class OrderedNumber (α : Type) [HostNumber α] [PartialOrder α] : Prop where
  eq_iff (a b : α) : HostNumber.eq a b = true ↔ a = b
  lt_iff (a b : α) : HostNumber.lt a b = true ↔ a < b
  le_iff (a b : α) : HostNumber.le a b = true ↔ a ≤ b

variable {α : Type}

def Verb.comparison : Verb α → Option (Comparison × Operand α)
  | .eq op | .okEq op => some (.eq, op)
  | .ne op => some (.ne, op)
  | .gt op | .okGt op => some (.gt, op)
  | .ge op | .okGe op => some (.ge, op)
  | .lt op | .okLt op => some (.lt, op)
  | .le op | .okLe op => some (.le, op)
  | .inRange _ _ _ | .okInRange _ _ _ | .isOk | .isErr => none

structure Range (α : Type) where
  lo : α
  hi : α
  inclusive : Bool

def Verb.range : Verb α → Option (Range α)
  | .inRange lo hi inclusive | .okInRange lo hi inclusive => some ⟨lo, hi, inclusive⟩
  | _ => none

def Verb.bare : Verb α → Verb α
  | .okEq op => .eq op
  | .okGt op => .gt op
  | .okGe op => .ge op
  | .okLt op => .lt op
  | .okLe op => .le op
  | .okInRange lo hi inclusive => .inRange lo hi inclusive
  | verb => verb

/-- A verb judges the result itself, compares, or tests a range. -/
theorem Verb.judges_compares_or_ranges (verb : Verb α) :
    verb = .isOk ∨ verb = .isErr ∨ (∃ c op, verb.comparison = some (c, op)) ∨
      ∃ range, verb.range = some range := by
  cases verb with
  | isOk => exact .inl rfl
  | isErr => exact .inr (.inl rfl)
  | eq op | ne op | gt op | ge op | lt op | le op | okEq op | okGt op | okGe op | okLt op
  | okLe op => exact .inr (.inr (.inl ⟨_, op, rfl⟩))
  | inRange lo hi inclusive | okInRange lo hi inclusive => exact .inr (.inr (.inr ⟨_, rfl⟩))

section Order

variable [PartialOrder α]

def Comparison.Relates : Comparison → α → α → Prop
  | .eq, a, b => a = b
  | .ne, a, b => a ≠ b
  | .gt, a, b => a > b
  | .ge, a, b => a ≥ b
  | .lt, a, b => a < b
  | .le, a, b => a ≤ b

def Range.interval (range : Range α) : Set α :=
  if range.inclusive then Set.Icc range.lo range.hi else Set.Ico range.lo range.hi

/-- Two numbers stand in the relation, or two bools in one of the relations that bools have. -/
inductive Comparable (c : Comparison) : Value α → Value α → Prop where
  | num {a b : α} (h : c.Relates a b) : Comparable c (.num a) (.num b)
  | boolEq {a b : Bool} (hc : c = .eq) (h : a = b) : Comparable c (.bool a) (.bool b)
  | boolNe {a b : Bool} (hc : c = .ne) (h : a ≠ b) : Comparable c (.bool a) (.bool b)

end Order

inductive StandsFor (env : Env α) : Operand α → Value α → Prop where
  | num (n : α) : StandsFor env (.num n) (.num n)
  | bool (b : Bool) : StandsFor env (.bool b) (.bool b)
  | var {name : String} {w : Value α} : env name = some w → StandsFor env (.var name) w

theorem resolve_iff {op : Operand α} {env : Env α} {w : Value α} :
    resolve op env = .ok w ↔ StandsFor env op w := by
  constructor
  · intro h
    cases op with
    | num n => cases h; exact .num n
    | bool b => cases h; exact .bool b
    | var name =>
      cases hname : env name with
      | some v =>
        rw [resolve, hname] at h
        cases h
        exact .var hname
      | none =>
        rw [resolve, hname] at h
        cases h
  · intro h
    cases h with
    | num n => rfl
    | bool b => rfl
    | var hname => rw [resolve, hname]

section Tests

variable [HostNumber α]

theorem verdict_passes_iff {ok : Bool} {detail : String} :
    (verdict ok detail).1 = true ↔ ok = true := by
  cases ok with
  | true => exact iff_of_true rfl rfl
  | false => exact iff_of_false nofun nofun

theorem cmpNum_passes_iff {c : Comparison} {v w : Value α} :
    (cmpNum c v w).1 = true ↔ ∃ a b, v = .num a ∧ w = .num b ∧ c.holds a b = true := by
  have hmismatch : (∀ a b, ¬(v = .num a ∧ w = .num b)) →
      ¬∃ a b, v = .num a ∧ w = .num b ∧ c.holds a b = true := by
    intro hkinds ⟨a, b, hv, hw, _⟩
    exact hkinds a b ⟨hv, hw⟩
  cases v with
  | num a =>
    cases w with
    | num b =>
      refine verdict_passes_iff.trans ⟨fun h => ⟨a, b, rfl, rfl, h⟩, fun h => ?_⟩
      obtain ⟨_, _, ⟨⟩, ⟨⟩, h⟩ := h
      exact h
    | unit | bool b | struct fields => exact iff_of_false nofun (hmismatch nofun)
  | unit | bool a | struct fields =>
    refine iff_of_false ?_ (hmismatch nofun)
    cases w <;> nofun

/-- Away from two bools under `==` or `!=`, a comparison is numeric. -/
theorem cmp_of_resolve {c : Comparison} {v w : Value α} {op : Operand α} {env : Env α}
    (hw : resolve op env = .ok w)
    (hkinds : ∀ a b, v = .bool a → w = .bool b → c ≠ .eq ∧ c ≠ .ne) :
    cmp c v op env = cmpNum c v w := by
  rw [cmp, hw]
  cases v with
  | bool a =>
    cases w with
    | bool b =>
      obtain ⟨heq, hne⟩ := hkinds a b rfl rfl
      cases c with
      | eq => exact absurd rfl heq
      | ne => exact absurd rfl hne
      | gt | ge | lt | le => rfl
    | unit | num b | struct fields => cases c <;> rfl
  | unit | num a | struct fields => cases c <;> rfl

theorem applyVerb_comparison {verb : Verb α} {c : Comparison} {op : Operand α}
    (hverb : verb.comparison = some (c, op)) (v : Value α) (env : Env α) :
    applyVerb verb (.ok v) env = cmp c v op env := by
  cases verb <;> cases hverb <;> rfl

theorem applyVerb_range {verb : Verb α} {range : Range α} (hverb : verb.range = some range)
    (v : Value α) (env : Env α) :
    applyVerb verb (.ok v) env = inRange range.lo range.hi range.inclusive v := by
  cases verb <;> cases hverb <;> rfl

theorem resolve_ok_of_cmp_passes {c : Comparison} {v : Value α} {op : Operand α} {env : Env α}
    (h : (cmp c v op env).1 = true) : ∃ w, resolve op env = .ok w := by
  rw [cmp] at h
  cases hresolve : resolve op env with
  | ok w => exact ⟨w, rfl⟩
  | error e =>
    rw [hresolve] at h
    cases h

theorem fails_on_error {verb : Verb α} (hverb : verb ≠ .isErr) (e : String) (env : Env α) :
    (applyVerb verb (.error e) env).1 = false := by
  rw [applyVerb_error hverb]

/-- On a result the bare verb differs in the message only. -/
theorem applyVerb_bare (verb : Verb α) (r : Except String (Value α)) (env : Env α) :
    (applyVerb verb r env).1 = (applyVerb verb.bare r env).1 := by
  cases r <;> cases verb <;> rfl

end Tests

section Ordered

variable [HostNumber α] [PartialOrder α] [OrderedNumber α]

theorem Comparison.holds_iff (c : Comparison) (a b : α) :
    c.holds a b = true ↔ c.Relates a b := by
  cases c with
  | eq => exact OrderedNumber.eq_iff a b
  | ne =>
    rw [Comparison.holds, Bool.not_eq_true', ← Bool.not_eq_true]
    exact not_congr (OrderedNumber.eq_iff a b)
  | gt => exact OrderedNumber.lt_iff b a
  | ge => exact OrderedNumber.le_iff b a
  | lt => exact OrderedNumber.lt_iff a b
  | le => exact OrderedNumber.le_iff a b

theorem cmp_passes_iff {c : Comparison} {v w : Value α} {op : Operand α} {env : Env α}
    (hw : resolve op env = .ok w) : (cmp c v op env).1 = true ↔ Comparable c v w := by
  by_cases hkinds : ∀ a b, v = .bool a → w = .bool b → c ≠ .eq ∧ c ≠ .ne
  · rw [cmp_of_resolve hw hkinds, cmpNum_passes_iff]
    constructor
    · intro ⟨a, b, hv, hw, h⟩
      subst hv hw
      exact .num ((c.holds_iff a b).mp h)
    · intro hcomparable
      cases hcomparable with
      | num h => exact ⟨_, _, rfl, rfl, (c.holds_iff _ _).mpr h⟩
      | boolEq hc _ => exact absurd hc (hkinds _ _ rfl rfl).1
      | boolNe hc _ => exact absurd hc (hkinds _ _ rfl rfl).2
  · push Not at hkinds
    obtain ⟨a, b, rfl, rfl, hc⟩ := hkinds
    rw [cmp, hw]
    by_cases heq : c = .eq
    · subst heq
      refine verdict_passes_iff.trans (beq_iff_eq.trans ⟨.boolEq rfl, fun h => ?_⟩)
      cases h with
      | boolEq _ h => exact h
      | boolNe hc _ => cases hc
    · obtain rfl := hc heq
      refine verdict_passes_iff.trans (bne_iff_ne.trans ⟨.boolNe rfl, fun h => ?_⟩)
      cases h with
      | boolEq hc _ => cases hc
      | boolNe _ h => exact h

theorem inRange_passes_iff {range : Range α} {v : Value α} :
    (inRange range.lo range.hi range.inclusive v).1 = true ↔
      ∃ a ∈ range.interval, v = .num a := by
  obtain ⟨lo, hi, inclusive⟩ := range
  cases v with
  | num a =>
    refine verdict_passes_iff.trans ⟨fun h => ⟨a, ?_, rfl⟩, fun ⟨_, ha, hv⟩ => ?_⟩
    · obtain ⟨hle, hhi⟩ := Bool.and_eq_true_iff.mp h
      have hlo : lo ≤ a := (OrderedNumber.le_iff lo a).mp hle
      cases inclusive with
      | true => exact ⟨hlo, (OrderedNumber.le_iff a hi).mp hhi⟩
      | false => exact ⟨hlo, (OrderedNumber.lt_iff a hi).mp hhi⟩
    · cases hv
      apply Bool.and_eq_true_iff.mpr
      cases inclusive with
      | true =>
        have hlo : lo ≤ a := ha.1
        exact ⟨(OrderedNumber.le_iff lo a).mpr hlo, (OrderedNumber.le_iff a hi).mpr ha.2⟩
      | false =>
        have hlo : lo ≤ a := ha.1
        exact ⟨(OrderedNumber.le_iff lo a).mpr hlo, (OrderedNumber.lt_iff a hi).mpr ha.2⟩
  | unit | bool b | struct fields => exact iff_of_false nofun nofun

/-- What the verbs accept, on any result and operand and under any bindings. -/
structure AcceptsByType (env : Env α) : Prop where
  resolves : ∀ (op : Operand α) w, resolve op env = .ok w ↔ StandsFor env op w
  compares : ∀ {verb : Verb α} {c op} r, verb.comparison = some (c, op) →
    ((applyVerb verb r env).1 = true ↔
      ∃ v w, r = .ok v ∧ resolve op env = .ok w ∧ Comparable c v w)
  ranges : ∀ {verb : Verb α} {range} r, verb.range = some range →
    ((applyVerb verb r env).1 = true ↔ ∃ a ∈ range.interval, r = .ok (.num a))
  bare : ∀ (verb : Verb α) r,
    (applyVerb verb r env).1 = true ↔ (applyVerb verb.bare r env).1 = true
  failed : ∀ (verb : Verb α) e, verb ≠ .isErr → (applyVerb verb (.error e) env).1 = false
  unit : ∀ verb : Verb α, (applyVerb verb (.ok .unit) env).1 = true ↔ verb = .isOk
  struct : ∀ (verb : Verb α) fields,
    (applyVerb verb (.ok (.struct fields)) env).1 = true ↔ verb = .isOk

theorem compares_iff {verb : Verb α} {c : Comparison} {op : Operand α} {env : Env α}
    (hverb : verb.comparison = some (c, op)) (r : Except String (Value α)) :
    (applyVerb verb r env).1 = true ↔
      ∃ v w, r = .ok v ∧ resolve op env = .ok w ∧ Comparable c v w := by
  cases r with
  | error e =>
    have herr : verb ≠ .isErr := by
      intro herr
      rw [herr] at hverb
      cases hverb
    rw [fails_on_error herr]
    exact iff_of_false nofun nofun
  | ok v =>
    rw [applyVerb_comparison hverb]
    constructor
    · intro h
      obtain ⟨w, hw⟩ := resolve_ok_of_cmp_passes h
      exact ⟨v, w, rfl, hw, (cmp_passes_iff hw).mp h⟩
    · intro ⟨_, w, hv, hw, h⟩
      cases hv
      exact (cmp_passes_iff hw).mpr h

theorem ranges_iff {verb : Verb α} {range : Range α} {env : Env α}
    (hverb : verb.range = some range) (r : Except String (Value α)) :
    (applyVerb verb r env).1 = true ↔ ∃ a ∈ range.interval, r = .ok (.num a) := by
  cases r with
  | error e =>
    have herr : verb ≠ .isErr := by
      intro herr
      rw [herr] at hverb
      cases hverb
    rw [fails_on_error herr]
    exact iff_of_false nofun nofun
  | ok v =>
    rw [applyVerb_range hverb, inRange_passes_iff]
    simp only [Except.ok.injEq]

/-- Neither a number nor a bool: only is_ok accepts it. -/
theorem passes_iff_isOk {v : Value α} (hnum : ∀ a, v ≠ .num a) (hbool : ∀ b, v ≠ .bool b)
    (verb : Verb α) (env : Env α) : (applyVerb verb (.ok v) env).1 = true ↔ verb = .isOk := by
  constructor
  · intro h
    obtain hok | herr | ⟨c, op, hverb⟩ | ⟨range, hverb⟩ := verb.judges_compares_or_ranges
    · exact hok
    · rw [herr] at h
      cases h
    · obtain ⟨_, w, hv, -, hcomparable⟩ := (compares_iff hverb _).mp h
      cases hv
      cases hcomparable with
      | num _ => exact absurd rfl (hnum _)
      | boolEq _ _ | boolNe _ _ => exact absurd rfl (hbool _)
    · obtain ⟨a, -, hv⟩ := (ranges_iff hverb _).mp h
      cases hv
      exact absurd rfl (hnum a)
  · intro hok
    rw [hok]
    rfl

/-- Every verb judges by the kind of the result first, and then by the order of the numbers. -/
theorem verbs_accept_by_type (env : Env α) : AcceptsByType env where
  resolves _ _ := resolve_iff
  compares r hverb := compares_iff hverb r
  ranges r hverb := ranges_iff hverb r
  bare verb r := by rw [applyVerb_bare]
  failed verb e hverb := fails_on_error hverb e env
  unit verb := passes_iff_isOk (fun _ hv => by cases hv) (fun _ hv => by cases hv) verb env
  struct verb fields := passes_iff_isOk (fun _ hv => by cases hv) (fun _ hv => by cases hv) verb env

end Ordered

instance : HostNumber ℤ where
  eq a b := a == b
  lt a b := a < b
  le a b := a ≤ b
  isFinite _ := true
  ofInt n := n
  toU32 n := UInt32.ofNat (min n.toNat (2 ^ 32 - 1))
  text := toString

instance : OrderedNumber ℤ where
  eq_iff _ _ := beq_iff_eq
  lt_iff _ _ := decide_eq_true_iff
  le_iff _ _ := decide_eq_true_iff

/-- `let limit = ...` of a call that returned 40. -/
def limited : Env ℤ := Function.update (fun _ => none) "limit" (some (.num 40))

/-- `ok_le limit` on 37. -/
theorem limited_accepts_by_type :
    AcceptsByType limited ∧
      (applyVerb (.okLe (.var "limit")) (.ok (.num 37)) limited).1 = true := by
  refine ⟨verbs_accept_by_type limited, ?_⟩
  have hresolve : resolve (.var "limit") limited = .ok (.num 40) := rfl
  have hle : Comparison.le.Relates (37 : ℤ) 40 := show (37 : ℤ) ≤ 40 by decide
  exact ((verbs_accept_by_type limited).compares _ rfl).mpr ⟨_, _, rfl, hresolve, .num hle⟩

end EcScript
