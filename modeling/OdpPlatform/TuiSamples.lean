import Mathlib.Algebra.BigOperators.Group.List.Basic
import Mathlib.Algebra.Order.Field.Rat
import Mathlib.Data.List.Induction
import Mathlib.Order.Bounds.Basic

/-! # test-tui: a window of samples and statistics of the session

`f64` is an ordered field and the counter a natural number. A buffer keeps the last samples only;
its statistics go back to the first. -/
namespace TuiSamples

variable {F T : Type}

/-! ## common.rs -/

structure SessionStats (F : Type) where
  min : F
  max : F
  sum : F
  count : ℕ
  prev : F
  delta : F
  deriving DecidableEq, Repr

structure SampleBuf (T F : Type) (N : ℕ) where
  samples : List T
  stats : SessionStats F
  fits : samples.length ≤ N

section Code

variable [Field F] [LinearOrder F]

def SessionStats.empty : SessionStats F := ⟨0, 0, 0, 0, 0, 0⟩

namespace SessionStats

def avg (stats : SessionStats F) : F := if stats.count = 0 then 0 else stats.sum / stats.count

def record (stats : SessionStats F) (value : F) : SessionStats F :=
  let stats :=
    if stats.count = 0 then { stats with min := value, max := value }
    else
      { stats with
        min := if value < stats.min then value else stats.min
        max := if value > stats.max then value else stats.max
        delta := value - stats.prev }
  { stats with sum := stats.sum + value, count := stats.count + 1, prev := value }

end SessionStats

namespace SampleBuf

variable {N : ℕ}

def empty : SampleBuf T F N := ⟨[], .empty, Nat.zero_le N⟩

/-- `push_back`, then `pop_front` where that is one too many. -/
def pushBack (N : ℕ) (samples : List T) (sample : T) : List T :=
  let samples := samples ++ [sample]
  if samples.length > N then samples.tail else samples

theorem length_pushBack {samples : List T} (h : samples.length ≤ N) (sample : T) :
    (pushBack N samples sample).length ≤ N := by
  rw [pushBack]
  by_cases hfull : (samples ++ [sample]).length > N
  · rw [if_pos hfull, List.length_tail, List.length_append, List.length_singleton]
    omega
  · rw [if_neg hfull]
    exact Nat.le_of_not_gt hfull

def insert (into : T → F) (buf : SampleBuf T F N) (sample : T) : SampleBuf T F N where
  samples := pushBack N buf.samples sample
  stats := buf.stats.record (into sample)
  fits := length_pushBack buf.fits sample

def get (into : T → F) (buf : SampleBuf T F N) : List (F × F) :=
  buf.samples.zipIdx.map fun x => ((x.2 : F), into x.1)

end SampleBuf

def session (into : T → F) (N : ℕ) (samples : List T) : SampleBuf T F N :=
  samples.foldl (SampleBuf.insert into) .empty

end Code

def lastOf (n : ℕ) (xs : List T) : List T := xs.drop (xs.length - n)

theorem length_lastOf (n : ℕ) (xs : List T) : (lastOf n xs).length = min n xs.length := by
  rw [lastOf, List.length_drop]
  omega

/-- One entry comes in at the back, and the oldest leaves a full window. -/
theorem pushBack_lastOf (n : ℕ) (xs : List T) (x : T) :
    SampleBuf.pushBack n (lastOf n xs) x = lastOf n (xs ++ [x]) := by
  have hlength : (lastOf n xs ++ [x]).length = min n xs.length + 1 := by
    rw [List.length_append, List.length_singleton, length_lastOf]
  rw [SampleBuf.pushBack]
  by_cases hfull : n ≤ xs.length
  · have hmore : (lastOf n xs ++ [x]).length > n := by omega
    have hnext : xs.length + 1 - n = xs.length - n + 1 := by omega
    rw [if_pos hmore, lastOf, lastOf, List.length_append, List.length_singleton, hnext,
      ← List.drop_append_of_le_length (by omega), List.tail_drop]
  · have hless : ¬(lastOf n xs ++ [x]).length > n := by omega
    rw [if_neg hless, lastOf, lastOf, List.length_append, List.length_singleton,
      Nat.sub_eq_zero_of_le (by omega), Nat.sub_eq_zero_of_le (by omega), List.drop_zero,
      List.drop_zero]

section Session

variable [Field F] [LinearOrder F]

theorem session_append (into : T → F) (N : ℕ) (samples : List T) (x : T) :
    session into N (samples ++ [x]) = (session into N samples).insert into x := by
  rw [session, List.foldl_append]
  rfl

theorem session_samples (into : T → F) (N : ℕ) (samples : List T) :
    (session into N samples).samples = lastOf N samples := by
  induction samples using List.reverseRecOn with
  | nil => exact List.drop_nil.symm
  | append_singleton samples x ih =>
    calc (session into N (samples ++ [x])).samples
        = SampleBuf.pushBack N (session into N samples).samples x := by
          rw [session_append, SampleBuf.insert]
      _ = lastOf N (samples ++ [x]) := by rw [ih, pushBack_lastOf]

end Session

section Bounds

variable [LinearOrder F]

theorem isLeast_append {values : List F} {m : F} (h : IsLeast {v | v ∈ values} m) (value : F) :
    IsLeast {v | v ∈ values ++ [value]} (if value < m then value else m) := by
  obtain ⟨hmem, hle⟩ := h
  by_cases hlt : value < m
  · rw [if_pos hlt]
    refine ⟨List.mem_append_right _ (List.mem_singleton_self value), fun v hv => ?_⟩
    obtain hv | hv := List.mem_append.mp hv
    · exact hlt.le.trans (hle hv)
    · exact (List.mem_singleton.mp hv).ge
  · rw [if_neg hlt]
    refine ⟨List.mem_append_left _ hmem, fun v hv => ?_⟩
    obtain hv | hv := List.mem_append.mp hv
    · exact hle hv
    · rw [List.mem_singleton.mp hv]
      exact not_lt.mp hlt

/-- The order turned round. -/
theorem isGreatest_append {values : List F} {m : F} (h : IsGreatest {v | v ∈ values} m)
    (value : F) : IsGreatest {v | v ∈ values ++ [value]} (if value > m then value else m) :=
  @isLeast_append Fᵒᵈ _ values m h value

end Bounds

section Statistics

variable [Field F] [LinearOrder F]

/-- What the statistics say of all values so far. -/
structure Summarizes (stats : SessionStats F) (values : List F) : Prop where
  count : stats.count = values.length
  sum : stats.sum = values.sum
  min : values ≠ [] → IsLeast {v | v ∈ values} stats.min
  max : values ≠ [] → IsGreatest {v | v ∈ values} stats.max
  prev : ∀ v ∈ values.getLast?, stats.prev = v
  delta : ∀ past a b, values = past ++ [a, b] → stats.delta = b - a
  first : values.length < 2 → stats.delta = 0

theorem summarizes_empty : Summarizes (.empty : SessionStats F) [] where
  count := rfl
  sum := rfl
  min h := absurd rfl h
  max h := absurd rfl h
  prev v hv := by cases hv
  delta past a b h := by simp at h
  first _ := rfl

theorem Summarizes.count_eq_zero {stats : SessionStats F} {values : List F}
    (h : Summarizes stats values) : stats.count = 0 ↔ values = [] := by
  rw [h.count, List.length_eq_zero_iff]

/-- The first value sets both bounds, and leaves the difference alone. -/
theorem summarizes_record_first {stats : SessionStats F} (h : Summarizes stats []) (value : F) :
    Summarizes (stats.record value) [value] := by
  have hcount : stats.count = 0 := h.count
  rw [SessionStats.record, if_pos hcount]
  constructor
  case count => exact congrArg (· + 1) hcount
  case sum =>
    have hsum : stats.sum = 0 := h.sum
    change stats.sum + value = [value].sum
    rw [hsum, zero_add, List.sum_singleton]
  case min =>
    exact fun _ => ⟨List.mem_singleton_self value, fun v hv => (List.mem_singleton.mp hv).ge⟩
  case max =>
    exact fun _ => ⟨List.mem_singleton_self value, fun v hv => (List.mem_singleton.mp hv).le⟩
  case prev =>
    intro v hv
    exact Option.some.inj hv
  case delta =>
    intro past a b heq
    have hlength := congrArg List.length heq
    simp at hlength
  case first => exact fun _ => h.first Nat.zero_lt_two

theorem summarizes_record_next {stats : SessionStats F} {values : List F}
    (h : Summarizes stats values) (hne : values ≠ []) (value : F) :
    Summarizes (stats.record value) (values ++ [value]) := by
  have hcount : ¬stats.count = 0 := fun hzero => hne (h.count_eq_zero.mp hzero)
  rw [SessionStats.record, if_neg hcount]
  constructor
  case count =>
    rw [List.length_append, List.length_singleton]
    exact congrArg (· + 1) h.count
  case sum =>
    rw [List.sum_append, List.sum_singleton]
    exact congrArg (· + value) h.sum
  case min => exact fun _ => isLeast_append (h.min hne) value
  case max => exact fun _ => isGreatest_append (h.max hne) value
  case prev =>
    intro v hv
    rw [List.getLast?_concat] at hv
    exact Option.some.inj hv
  case delta =>
    intro past a b heq
    obtain ⟨hvalues, hvalue⟩ := List.append_inj' (heq.trans (List.append_cons past a [b])) rfl
    have hprev : stats.prev = a := h.prev a (by rw [hvalues, List.getLast?_concat]; rfl)
    cases hvalue
    exact congrArg (value - ·) hprev
  case first =>
    intro hlength
    rw [List.length_append, List.length_singleton] at hlength
    exact absurd (List.length_eq_zero_iff.mp (by omega)) hne

theorem summarizes_record {stats : SessionStats F} {values : List F}
    (h : Summarizes stats values) (value : F) :
    Summarizes (stats.record value) (values ++ [value]) := by
  by_cases hne : values = []
  · subst hne
    exact summarizes_record_first h value
  · exact summarizes_record_next h hne value

theorem session_stats (into : T → F) (N : ℕ) (samples : List T) :
    Summarizes (session into N samples).stats (samples.map into) := by
  induction samples using List.reverseRecOn with
  | nil => exact summarizes_empty
  | append_singleton samples x ih =>
    rw [session_append, List.map_append]
    exact summarizes_record ih (into x)

theorem avg_of_summarizes {stats : SessionStats F} {values : List F}
    (h : Summarizes stats values) : stats.avg = values.sum / values.length := by
  rw [SessionStats.avg]
  by_cases hcount : stats.count = 0
  · rw [if_pos hcount, h.count_eq_zero.mp hcount, List.sum_nil, zero_div]
  · rw [if_neg hcount, h.sum, h.count]

/-- A session: the window on one side, and statistics of everything on the other. -/
structure Reports (into : T → F) (N : ℕ) (samples : List T) : Prop where
  window : (session into N samples).samples = lastOf N samples
  length : (session into N samples).samples.length = min N samples.length
  pairs : (session into N samples).get into =
    (lastOf N samples).zipIdx.map fun x => ((x.2 : F), into x.1)
  min : samples ≠ [] → IsLeast {v | v ∈ samples.map into} (session into N samples).stats.min
  max : samples ≠ [] → IsGreatest {v | v ∈ samples.map into} (session into N samples).stats.max
  mean : (session into N samples).stats.avg = (samples.map into).sum / samples.length
  delta : ∀ past a b, samples = past ++ [a, b] →
    (session into N samples).stats.delta = into b - into a
  still : samples.length < 2 → (session into N samples).stats.delta = 0

theorem session_reports (into : T → F) (N : ℕ) (samples : List T) : Reports into N samples := by
  have hstats := session_stats into N samples
  have hmap : samples ≠ [] → samples.map into ≠ [] := fun hne => by simpa using hne
  constructor
  case window => exact session_samples into N samples
  case length => rw [session_samples, length_lastOf]
  case pairs => rw [SampleBuf.get, session_samples]
  case min => exact fun hne => hstats.min (hmap hne)
  case max => exact fun hne => hstats.max (hmap hne)
  case mean => rw [avg_of_summarizes hstats, List.length_map]
  case delta =>
    intro past a b hsamples
    apply hstats.delta (past.map into)
    rw [hsamples, List.map_append]
    rfl
  case still => exact fun hlength => hstats.first (by rwa [List.length_map])

end Statistics

end TuiSamples
