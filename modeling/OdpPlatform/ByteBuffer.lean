import Mathlib.Data.List.Basic
import Mathlib.Data.Nat.Digits.Defs
import Mathlib.Data.UInt

/-! # Byte buffers: overwriting a window, padding, little-endian words -/
namespace ByteBuffer

variable {α : Type}

abbrev Bytes := List UInt8

def splice (b : List α) (off : ℕ) (d : List α) : List α :=
  b.take off ++ d ++ b.drop (off + d.length)

def window (b : List α) (off n : ℕ) : List α := (b.drop off).take n

@[irreducible] def zeroed (n : ℕ) : Bytes := List.replicate n 0

@[simp] theorem length_zeroed (n : ℕ) : (zeroed n).length = n := by
  unfold zeroed
  exact List.length_replicate

def padTo (n : ℕ) (x : α) (b : List α) : List α := b ++ List.replicate (n - b.length) x

theorem length_splice {b d : List α} {off : ℕ} (h : off + d.length ≤ b.length) :
    (splice b off d).length = b.length := by
  simp only [splice, List.length_append, List.length_take, List.length_drop]
  omega

/-- Overwriting all of it. -/
theorem splice_full {b d : List α} (h : d.length = b.length) : splice b 0 d = d := by
  simp [splice, h]

theorem getElem?_splice {b d : List α} {off : ℕ} (h : off ≤ b.length) (i : ℕ) :
    (splice b off d)[i]? =
      if i < off then b[i]? else if i < off + d.length then d[i - off]? else b[i]? := by
  have hlen : (b.take off).length = off := by simp [h]
  unfold splice
  by_cases h1 : i < off
  · rw [if_pos h1, List.append_assoc, List.getElem?_append_left (by omega),
      List.getElem?_take_of_lt h1]
  · rw [if_neg h1, List.append_assoc, List.getElem?_append_right (by omega), hlen]
    by_cases h2 : i < off + d.length
    · rw [if_pos h2, List.getElem?_append_left (by omega)]
    · rw [if_neg h2, List.getElem?_append_right (by omega), List.getElem?_drop]
      congr 1
      omega

theorem getElem?_window (b : List α) (off n i : ℕ) :
    (window b off n)[i]? = if i < n then b[off + i]? else none := by
  unfold window
  by_cases h : i < n
  · rw [if_pos h, List.getElem?_take_of_lt h, List.getElem?_drop]
  · rw [if_neg h]
    simp only [List.getElem?_eq_none_iff, List.length_take]
    omega

theorem length_window (b : List α) (off n : ℕ) :
    (window b off n).length = min n (b.length - off) := by
  simp [window]

theorem length_padTo {n : ℕ} {x : α} {b : List α} (h : b.length ≤ n) :
    (padTo n x b).length = n := by
  simp only [padTo, List.length_append, List.length_replicate]
  omega

theorem getElem?_padTo {n : ℕ} {x : α} {b : List α} (i : ℕ) (h : b.length ≤ n) :
    (padTo n x b)[i]? = if i < b.length then b[i]? else if i < n then some x else none := by
  unfold padTo
  by_cases h1 : i < b.length
  · rw [if_pos h1, List.getElem?_append_left h1]
  · rw [if_neg h1, List.getElem?_append_right (by omega), List.getElem?_replicate]
    by_cases h2 : i < n
    · rw [if_pos h2, if_pos (by omega)]
    · rw [if_neg h2, if_neg (by omega)]

/-- A window that does not meet the written one reads as before. -/
theorem window_splice_disjoint {b d : List α} {off o n : ℕ} (h : off ≤ b.length)
    (hd : o + n ≤ off ∨ off + d.length ≤ o) :
    window (splice b off d) o n = window b o n := by
  apply List.ext_getElem?
  intro i
  rw [getElem?_window, getElem?_window, getElem?_splice h]
  by_cases hi : i < n
  · rw [if_pos hi, if_pos hi]
    rcases hd with hd | hd
    · rw [if_pos (by omega)]
    · rw [if_neg (by omega), if_neg (by omega)]
  · rw [if_neg hi, if_neg hi]

/-- Writing inside a window, then reading the window. -/
theorem window_splice_inside {b d : List α} {o n k : ℕ} (hk : k + d.length ≤ n)
    (hn : o + n ≤ b.length) :
    window (splice b (o + k) d) o n = splice (window b o n) k d := by
  have hlen : k ≤ (window b o n).length := by
    rw [length_window]
    omega
  apply List.ext_getElem?
  intro i
  rw [getElem?_window, getElem?_splice (by omega), getElem?_splice hlen, getElem?_window]
  by_cases hi : i < n
  · rw [if_pos hi, if_pos hi]
    by_cases h1 : i < k
    · rw [if_pos (by omega), if_pos h1]
    · rw [if_neg (by omega), if_neg h1]
      by_cases h2 : i < k + d.length
      · rw [if_pos (by omega), if_pos h2]
        congr 1
        omega
      · rw [if_neg (by omega), if_neg h2]
  · rw [if_neg hi, if_neg hi, if_neg (by omega), if_neg (by omega)]

/-- Two writes that meet at the front are one. -/
theorem splice_append (b x y : List α) :
    splice (splice b 0 x) x.length y = splice b 0 (x ++ y) := by
  simp [splice, List.drop_append]

/-- A window of a padded list is the padded window. -/
theorem window_padTo {x : α} {b : List α} {N o n : ℕ} (hb : b.length ≤ N) (hn : o + n ≤ N) :
    window (padTo N x b) o n = padTo n x (window b o n) := by
  have hw : (window b o n).length = min n (b.length - o) := length_window b o n
  apply List.ext_getElem?
  intro i
  rw [getElem?_window, getElem?_padTo _ hb, getElem?_padTo _ (by omega), getElem?_window]
  by_cases hi : i < n
  · rw [if_pos hi, if_pos hi]
    by_cases h1 : o + i < b.length
    · rw [if_pos h1, if_pos (by omega)]
    · rw [if_neg h1, if_pos (by omega : o + i < N), if_neg (by omega), if_pos hi]
  · rw [if_neg hi, if_neg (by omega), if_neg hi]

theorem window_window {b : List α} {o n p m : ℕ} (h : p + m ≤ n) :
    window (window b o n) p m = window b (o + p) m := by
  apply List.ext_getElem?
  intro i
  rw [getElem?_window, getElem?_window, getElem?_window]
  by_cases hi : i < m
  · rw [if_pos hi, if_pos hi, if_pos (by omega), Nat.add_assoc]
  · rw [if_neg hi, if_neg hi]

theorem window_append_left {a b : List α} {o n : ℕ} (h : o + n ≤ a.length) :
    window (a ++ b) o n = window a o n := by
  apply List.ext_getElem?
  intro i
  rw [getElem?_window, getElem?_window]
  by_cases hi : i < n
  · rw [if_pos hi, if_pos hi, List.getElem?_append_left (by omega)]
  · rw [if_neg hi, if_neg hi]

theorem window_append_right (a b : List α) (o n : ℕ) :
    window (a ++ b) (a.length + o) n = window b o n := by
  apply List.ext_getElem?
  intro i
  rw [getElem?_window, getElem?_window]
  by_cases hi : i < n
  · rw [if_pos hi, if_pos hi, List.getElem?_append_right (by omega)]
    congr 1
    omega
  · rw [if_neg hi, if_neg hi]

theorem window_add (b : List α) (o n m : ℕ) :
    window b o (n + m) = window b o n ++ window b (o + n) m := by
  simp [window, List.take_add, List.drop_drop]

/-- A suffix begins with any window at its start. -/
theorem window_append_drop (b : List α) (o n : ℕ) : window b o n ++ b.drop (o + n) = b.drop o := by
  rw [window, ← List.drop_drop, List.take_append_drop]

/-- What a buffer holds up to the end of the part just written. -/
theorem take_splice {b d : List α} {off : ℕ} (h : off ≤ b.length) :
    (splice b off d).take (off + d.length) = b.take off ++ d := by
  have hlen : (b.take off).length = off := List.length_take_of_le h
  rw [splice, List.take_append_of_le_length (by rw [List.length_append, hlen]),
    List.take_of_length_le (by rw [List.length_append, hlen])]

/-- Consecutive windows tile the list: `n` blocks of `size` entries give its first `n * size`. -/
theorem flatten_windows (b : List α) (size n : ℕ) :
    ((List.range n).map (fun i => window b (i * size) size)).flatten = b.take (n * size) := by
  induction n with
  | zero => simp
  | succ n ih =>
    rw [List.range_succ, List.map_append, List.flatten_append, ih, Nat.succ_mul, List.take_add]
    simp [window]

def leBytes (w : UInt32) : Bytes :=
  [UInt8.ofNat w.toNat, UInt8.ofNat (w.toNat / 2 ^ 8), UInt8.ofNat (w.toNat / 2 ^ 16),
    UInt8.ofNat (w.toNat / 2 ^ 24)]

def leWord : Bytes → UInt32
  | a :: b :: c :: d :: _ =>
    UInt32.ofNat (a.toNat + 2 ^ 8 * b.toNat + 2 ^ 16 * c.toNat + 2 ^ 24 * d.toNat)
  | _ => 0

/-- A word is read from its own four bytes. -/
theorem leWord_window (b : Bytes) (o : ℕ) : leWord (window b o 4) = leWord (b.drop o) := by
  unfold window
  generalize b.drop o = c
  match c with
  | [] | [_] | [_, _] | [_, _, _] => rfl
  | _ :: _ :: _ :: _ :: _ => rfl

/-- Only the first four bytes count. -/
theorem leWord_take {b : Bytes} {m : ℕ} (hm : 4 ≤ m) : leWord (b.take m) = leWord b := by
  have hwindow : window (b.take m) 0 4 = window b 0 4 := by
    simp only [window, List.drop_zero, List.take_take, Nat.min_eq_left hm]
  have htake := leWord_window (b.take m) 0
  rw [hwindow, leWord_window b 0] at htake
  exact htake.symm

@[simp] theorem length_leBytes (w : UInt32) : (leBytes w).length = 4 := rfl

@[simp] theorem leWord_leBytes (w : UInt32) : leWord (leBytes w) = w := by
  apply UInt32.toNat_inj.mp
  have hw := w.toNat_lt
  simp only [leBytes, leWord, UInt32.toNat_ofNat', UInt8.toNat_ofNat']
  omega

theorem leBytes_leWord (a b c d : UInt8) (rest : Bytes) :
    leBytes (leWord (a :: b :: c :: d :: rest)) = [a, b, c, d] := by
  have ha := a.toNat_lt
  have hb := b.toNat_lt
  have hc := c.toNat_lt
  have hd := d.toNat_lt
  have hw : (leWord (a :: b :: c :: d :: rest)).toNat =
      a.toNat + 2 ^ 8 * b.toNat + 2 ^ 16 * c.toNat + 2 ^ 24 * d.toNat := by
    rw [leWord, UInt32.toNat_ofNat']
    omega
  have byte : ∀ (x : UInt8) (n : ℕ), n % 2 ^ 8 = x.toNat → UInt8.ofNat n = x := by
    intro x n hn
    apply UInt8.toNat_inj.mp
    rw [UInt8.toNat_ofNat', hn]
  rw [leBytes, hw, byte a _ (by omega), byte b _ (by omega), byte c _ (by omega),
    byte d _ (by omega)]

/-- A word is determined by the bytes it was read from. -/
theorem leBytes_leWord_of_length {b : Bytes} (hb : b.length = 4) : leBytes (leWord b) = b := by
  match b with
  | [x, y, z, w] => exact leBytes_leWord x y z w []

/-- `from_le_bytes` of any width -/
def leValue (b : Bytes) : ℕ := Nat.ofDigits (2 ^ 8) (b.map UInt8.toNat)

theorem leValue_lt (b : Bytes) : leValue b < 2 ^ (8 * b.length) := by
  have hdigits : ∀ d ∈ b.map UInt8.toNat, d < 2 ^ 8 := by
    intro d hd
    obtain ⟨x, -, rfl⟩ := List.mem_map.mp hd
    exact x.toNat_lt
  have hvalue := Nat.ofDigits_lt_base_pow_length (by decide) hdigits
  rw [List.length_map, ← pow_mul] at hvalue
  exact hvalue

theorem leValue_append (a b : Bytes) :
    leValue (a ++ b) = leValue a + 2 ^ (8 * a.length) * leValue b := by
  rw [leValue, List.map_append, Nat.ofDigits_append, List.length_map, ← pow_mul]
  rfl

theorem toNat_leWord (a b c d : UInt8) (rest : Bytes) :
    (leWord (a :: b :: c :: d :: rest)).toNat = leValue [a, b, c, d] := by
  have ha := a.toNat_lt
  have hb := b.toNat_lt
  have hc := c.toNat_lt
  have hd := d.toNat_lt
  simp only [leWord, UInt32.toNat_ofNat', leValue, List.map_cons, List.map_nil, Nat.ofDigits_cons,
    Nat.ofDigits_nil]
  omega

def leBytes16 (w : UInt16) : Bytes := [UInt8.ofNat w.toNat, UInt8.ofNat (w.toNat / 2 ^ 8)]

def leWord16 : Bytes → UInt16
  | a :: b :: _ => UInt16.ofNat (a.toNat + 2 ^ 8 * b.toNat)
  | _ => 0

theorem toNat_leWord16 (a b : UInt8) (rest : Bytes) :
    (leWord16 (a :: b :: rest)).toNat = a.toNat + 2 ^ 8 * b.toNat := by
  have ha := a.toNat_lt
  have hb := b.toNat_lt
  rw [leWord16, UInt16.toNat_ofNat']
  omega

@[simp] theorem length_leBytes16 (w : UInt16) : (leBytes16 w).length = 2 := rfl

@[simp] theorem leWord16_leBytes16 (w : UInt16) (rest : Bytes) :
    leWord16 (leBytes16 w ++ rest) = w := by
  apply UInt16.toNat_inj.mp
  have hw := w.toNat_lt
  simp only [leBytes16, List.cons_append, leWord16, UInt16.toNat_ofNat', UInt8.toNat_ofNat']
  omega

theorem leBytes16_leWord16 {b : Bytes} (hb : b.length = 2) : leBytes16 (leWord16 b) = b := by
  match b with
  | [x, y] =>
    have hx := x.toNat_lt
    have hy := y.toNat_lt
    have hw := toNat_leWord16 x y []
    have hlow : UInt8.ofNat (leWord16 [x, y]).toNat = x := by
      apply UInt8.toNat_inj.mp
      rw [UInt8.toNat_ofNat', hw]
      omega
    have hhigh : UInt8.ofNat ((leWord16 [x, y]).toNat / 2 ^ 8) = y := by
      apply UInt8.toNat_inj.mp
      rw [UInt8.toNat_ofNat', hw]
      omega
    rw [leBytes16, hlow, hhigh]

/-- A byte slice; none is longer than `isize::MAX`. -/
structure Slice where
  bytes : Bytes
  size : bytes.length < 2 ^ 63

def Slice.len (s : Slice) : UInt64 := UInt64.ofNat s.bytes.length

theorem Slice.toNat_len (s : Slice) : s.len.toNat = s.bytes.length := by
  have hsize := s.size
  rw [Slice.len, UInt64.toNat_ofNat']
  omega

end ByteBuffer
