import Mathlib.Data.UInt
import Mathlib.Order.MinMax

/-! # test-tui: battery percentages

The capacities are whatever the EC reports. A product of `u32`s that does not fit ends the program
where the build checks overflow, and wraps where it does not. -/
namespace TuiBattery

/-! ## battery.rs -/

def checkedDiv (a b : UInt32) : Option UInt32 := if b = 0 then none else some (a / b)

def clamp (value lo hi : UInt32) : UInt32 :=
  if value < lo then lo else if hi < value then hi else value

/-- The product first; `none` is the panic of a build with overflow checks. -/
def clampedPercent (overflowChecks : Bool) (value design : UInt32) : Option UInt16 :=
  if overflowChecks = true ∧ 2 ^ 32 ≤ value.toNat * 100 then none
  else some (clamp ((checkedDiv (value * 100) design).getD 0) 0 100).toUInt16

def batPercent (overflowChecks : Bool) (remaining design : UInt32) : Option UInt16 :=
  clampedPercent overflowChecks remaining design

def batHealth (overflowChecks : Bool) (lastFull design : UInt32) : Option UInt16 :=
  clampedPercent overflowChecks lastFull design

/-- A battery without a design capacity shows nothing. -/
def exactPercent (value design : ℕ) : ℕ :=
  if design = 0 then 0 else min 100 (100 * value / design)

theorem exactPercent_mono {value value' : ℕ} (h : value ≤ value') (design : ℕ) :
    exactPercent value design ≤ exactPercent value' design := by
  rw [exactPercent, exactPercent]
  by_cases hdesign : design = 0
  · rw [if_pos hdesign, if_pos hdesign]
  · rw [if_neg hdesign, if_neg hdesign]
    exact min_le_min_left 100 (Nat.div_le_div_right (Nat.mul_le_mul_left 100 h))

theorem exactPercent_full {value design : ℕ} (hdesign : design ≠ 0) (h : design ≤ value) :
    exactPercent value design = 100 := by
  rw [exactPercent, if_neg hdesign]
  have hfull : 100 ≤ 100 * value / design := by
    rw [Nat.le_div_iff_mul_le (Nat.pos_of_ne_zero hdesign)]
    exact Nat.mul_le_mul_left 100 h
  exact min_eq_left hfull

theorem exactPercent_le (value design : ℕ) : exactPercent value design ≤ 100 := by
  rw [exactPercent]
  by_cases hdesign : design = 0
  · rw [if_pos hdesign]
    exact Nat.zero_le 100
  · rw [if_neg hdesign]
    exact min_le_left _ _

theorem toNat_clamp (value : UInt32) : (clamp value 0 100).toNat = min 100 value.toNat := by
  rw [clamp, if_neg (by rw [UInt32.not_lt]; exact UInt32.zero_le)]
  by_cases h : 100 < value
  · rw [if_pos h]
    exact (min_eq_left (Nat.le_of_lt (UInt32.lt_iff_toNat_lt.mp h))).symm
  · rw [if_neg h]
    exact (min_eq_right (UInt32.le_iff_toNat_le.mp (UInt32.not_lt.mp h))).symm

theorem toNat_mul_hundred {value : UInt32} (h : 100 * value.toNat < 2 ^ 32) :
    (value * 100).toNat = 100 * value.toNat := by
  rw [UInt32.toNat_mul, Nat.mul_comm]
  exact Nat.mod_eq_of_lt h

theorem toNat_quotient {value : UInt32} (h : 100 * value.toNat < 2 ^ 32) (design : UInt32) :
    (clamp ((checkedDiv (value * 100) design).getD 0) 0 100).toNat =
      exactPercent value.toNat design.toNat := by
  rw [toNat_clamp, checkedDiv, exactPercent]
  by_cases hdesign : design = 0
  · rw [if_pos hdesign, if_pos (by rw [hdesign]; rfl)]
    rfl
  · have hne : design.toNat ≠ 0 := fun hzero => hdesign (UInt32.toNat_inj.mp hzero)
    rw [if_neg hdesign, if_neg hne, Option.getD_some, UInt32.toNat_div, toNat_mul_hundred h]

theorem clampedPercent_of_lt (overflowChecks : Bool) {value : UInt32}
    (h : 100 * value.toNat < 2 ^ 32) (design : UInt32) :
    ∃ p, clampedPercent overflowChecks value design = some p ∧
      p.toNat = exactPercent value.toNat design.toNat := by
  have hfits : ¬(overflowChecks = true ∧ 2 ^ 32 ≤ value.toNat * 100) := by
    intro ⟨_, hlarge⟩
    omega
  have hle := exactPercent_le value.toNat design.toNat
  refine ⟨_, if_neg hfits, ?_⟩
  rw [UInt32.toNat_toUInt16, toNat_quotient h]
  exact Nat.mod_eq_of_lt (by omega)

/-- What is shown for a capacity, in a build with overflow checks and in one without. -/
structure ShowsExactly (percent : Bool → UInt32 → UInt32 → Option UInt16)
    (value design : UInt32) : Prop where
  exact : ∀ overflowChecks, ∃ p, percent overflowChecks value design = some p ∧
    p.toNat = exactPercent value.toNat design.toNat

structure ShowsPercent (percent : Bool → UInt32 → UInt32 → Option UInt16)
    (value design : UInt32) : Prop extends ShowsExactly percent value design where
  mono : ∀ overflowChecks, ∀ value' ≤ value, ∃ p p', percent overflowChecks value design = some p ∧
    percent overflowChecks value' design = some p' ∧ p' ≤ p
  full : design ≠ 0 → design ≤ value → ∀ overflowChecks,
    percent overflowChecks value design = some 100

theorem not_showsExactly_of_large {value design : UInt32} (h : 2 ^ 32 ≤ 100 * value.toNat) :
    ¬ShowsExactly clampedPercent value design := by
  intro hexact
  obtain ⟨p, hp, -⟩ := hexact.exact true
  have hpanics : clampedPercent true value design = none := if_pos ⟨rfl, by omega⟩
  rw [hpanics] at hp
  cases hp

theorem clampedPercent_shows {value : UInt32} (h : 100 * value.toNat < 2 ^ 32) (design : UInt32) :
    ShowsPercent clampedPercent value design where
  exact overflowChecks := clampedPercent_of_lt overflowChecks h design
  mono overflowChecks value' hle := by
    have hle := UInt32.le_iff_toNat_le.mp hle
    obtain ⟨p, hp, hvalue⟩ := clampedPercent_of_lt overflowChecks h design
    obtain ⟨p', hp', hvalue'⟩ := @clampedPercent_of_lt overflowChecks value' (by omega) design
    refine ⟨p, p', hp, hp', UInt16.le_iff_toNat_le.mpr ?_⟩
    rw [hvalue, hvalue']
    exact exactPercent_mono hle _
  full hdesign hle overflowChecks := by
    obtain ⟨p, hp, hvalue⟩ := clampedPercent_of_lt overflowChecks h design
    have hne : design.toNat ≠ 0 := fun hzero => hdesign (UInt32.toNat_inj.mp hzero)
    rw [exactPercent_full hne (UInt32.le_iff_toNat_le.mp hle)] at hvalue
    rw [hp]
    exact congrArg some (UInt16.toNat_inj.mp hvalue)

theorem clampedPercent_shows_iff (value design : UInt32) :
    ShowsPercent clampedPercent value design ↔ 100 * value.toNat < 2 ^ 32 := by
  constructor
  · intro h
    by_contra hlarge
    exact not_showsExactly_of_large (Nat.le_of_not_lt hlarge) h.toShowsExactly
  · intro h
    exact clampedPercent_shows h design

/-- Both percentages are right up to a capacity of 42949672, and no further. -/
theorem percents_exact_iff (value design : UInt32) :
    (ShowsPercent batPercent value design ↔ 100 * value.toNat < 2 ^ 32) ∧
      (ShowsPercent batHealth value design ↔ 100 * value.toNat < 2 ^ 32) :=
  ⟨clampedPercent_shows_iff value design, clampedPercent_shows_iff value design⟩

/-- 0xDEADBEEF in both fields, as stubs report it. -/
theorem stub_health_not_exact :
    ¬ShowsExactly batHealth 0xDEADBEEF 0xDEADBEEF ∧
      batHealth true 0xDEADBEEF 0xDEADBEEF = none ∧
      batHealth false 0xDEADBEEF 0xDEADBEEF ≠ some 100 ∧
      ¬ShowsExactly batPercent 50000000 50000000 ∧
        batPercent false 50000000 50000000 = some 14 := by
  refine ⟨fun h => ?_, by decide, by decide, fun h => ?_, by decide⟩
  · obtain ⟨p, hp, -⟩ := h.exact true
    have hpanics : batHealth true 0xDEADBEEF 0xDEADBEEF = none := by decide
    rw [hpanics] at hp
    cases hp
  · obtain ⟨p, hp, -⟩ := h.exact true
    have hpanics : batPercent true 50000000 50000000 = none := by decide
    rw [hpanics] at hp
    cases hp

end TuiBattery
