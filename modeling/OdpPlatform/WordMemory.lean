import Mathlib.Data.Nat.Digits.Lemmas
import Mathlib.Data.UInt

/-! # Words in a byte memory

A 64-bit word lies in eight bytes, the low one first. A word reads back as long as its bytes stay,
whatever is written elsewhere. -/
namespace WordMemory

abbrev Memory := ℕ → UInt8

def byteOf (w : UInt64) (i : ℕ) : UInt8 := UInt8.ofNat (w.toNat / 256 ^ i % 256)

def store (m : Memory) (a : UInt64) (w : UInt64) : Memory := fun i =>
  if a.toNat ≤ i ∧ i < a.toNat + 8 then byteOf w (i - a.toNat) else m i

def load (m : Memory) (a : UInt64) : UInt64 :=
  UInt64.ofNat (Nat.ofDigits 256 ((List.range 8).map fun i => (m (a.toNat + i)).toNat))

/-- The digits of a number that has no more of them. -/
theorem ofDigits_map_range {b : ℕ} (hb : 0 < b) (k : ℕ) :
    ∀ {n : ℕ}, n < b ^ k → Nat.ofDigits b ((List.range k).map fun i => n / b ^ i % b) = n := by
  induction k with
  | zero =>
    intro n hn
    rw [Nat.pow_zero] at hn
    exact (Nat.lt_one_iff.mp hn).symm
  | succ k ih =>
    intro n hn
    have hquotient : n / b < b ^ k := by
      rw [Nat.div_lt_iff_lt_mul hb, ← Nat.pow_succ]
      exact hn
    have hshift : ∀ i, n / b ^ (i + 1) % b = n / b / b ^ i % b := by
      intro i
      rw [Nat.div_div_eq_div_mul, Nat.pow_succ, Nat.mul_comm]
    rw [List.range_succ_eq_map, List.map_cons, List.map_map, Nat.ofDigits_cons, Nat.pow_zero,
      Nat.div_one]
    have htail : (List.range k).map ((fun i => n / b ^ i % b) ∘ Nat.succ) =
        (List.range k).map fun i => n / b / b ^ i % b :=
      List.map_congr_left fun i _ => hshift i
    rw [htail, ih hquotient, Nat.mod_add_div]

theorem load_congr {m m' : Memory} {a : UInt64}
    (h : ∀ i, a.toNat ≤ i → i < a.toNat + 8 → m i = m' i) : load m a = load m' a := by
  have hbytes : ((List.range 8).map fun i => (m (a.toNat + i)).toNat) =
      (List.range 8).map fun i => (m' (a.toNat + i)).toNat := by
    apply List.map_congr_left
    intro i hi
    have hlt := List.mem_range.mp hi
    rw [h (a.toNat + i) (by omega) (by omega)]
  rw [load, load, hbytes]

theorem load_store (m : Memory) (a w : UInt64) : load (store m a w) a = w := by
  have hbytes : ((List.range 8).map fun i => (store m a w (a.toNat + i)).toNat) =
      (List.range 8).map fun i => w.toNat / 256 ^ i % 256 := by
    apply List.map_congr_left
    intro i hi
    have hlt := List.mem_range.mp hi
    have hin : a.toNat ≤ a.toNat + i ∧ a.toNat + i < a.toNat + 8 := by omega
    rw [store, if_pos hin, Nat.add_sub_cancel_left, byteOf]
    exact UInt8.toNat_ofNat_of_lt' (Nat.mod_lt _ (by decide))
  rw [load, hbytes, ofDigits_map_range (by decide) 8 w.toNat_lt, UInt64.ofNat_toNat]

/-- A mask of a power of two. -/
theorem toNat_and_not_mask {x mask : UInt64} {k : ℕ} (hk : k < 64)
    (hmask : mask.toNat = 2 ^ k - 1) : (x &&& ~~~mask).toNat = x.toNat / 2 ^ k * 2 ^ k := by
  rw [UInt64.toNat_and, UInt64.toNat_not, hmask]
  apply Nat.eq_of_testBit_eq
  intro i
  have hlt : 2 ^ k - 1 < 2 ^ 64 := by
    have := Nat.pow_lt_pow_right (show 1 < 2 by decide) hk
    omega
  have hsub : UInt64.size - 1 - (2 ^ k - 1) = 2 ^ 64 - (2 ^ k - 1 + 1) := by
    rw [Nat.sub_sub, Nat.add_comm 1]
    rfl
  rw [hsub, Nat.testBit_and, Nat.testBit_two_pow_sub_succ hlt, Nat.testBit_two_pow_sub_one,
    Nat.testBit_mul_two_pow, Nat.testBit_div_two_pow]
  by_cases hi : k ≤ i
  · have hkeep : decide (i < k) = false := decide_eq_false (by omega)
    rw [hkeep, decide_eq_true hi, Nat.sub_add_cancel hi]
    by_cases hword : i < 64
    · simp [hword]
    · have hlarge : x.toNat < 2 ^ i :=
        x.toNat_lt.trans_le (Nat.pow_le_pow_right (by decide) (Nat.le_of_not_lt hword))
      rw [Nat.testBit_lt_two_pow hlarge]
      rfl
  · have hdrop : decide (i < k) = true := decide_eq_true (by omega)
    rw [hdrop, decide_eq_false hi]
    simp

end WordMemory
