import Mathlib.Data.List.MinMax
import Mathlib.Data.List.Nodup

/-! # Longest-prefix lookups

A table lists keys, each with the path it is known by. Looking a path up finds the key whose own
path is the longest that begins it. While the table grows, a lookup finds the key of the one before
it again, or it matches strictly more. -/
namespace LongestPrefix

variable {κ α : Type*}

structure Table (κ α : Type*) where
  entries : List (κ × List α)
  nodupKeys : (entries.map Prod.fst).Nodup
  nodupPaths : (entries.map Prod.snd).Nodup

namespace Table

instance : Preorder (Table κ α) where
  le s t := s.entries ⊆ t.entries
  le_refl s := List.Subset.refl s.entries
  le_trans _ _ _ hst htu := List.Subset.trans hst htu

variable {s t : Table κ α} {target p q : List α} {a b : κ}

theorem path_unique (hp : (a, p) ∈ t.entries) (hq : (a, q) ∈ t.entries) : p = q := by
  have hsame := List.inj_on_of_nodup_map t.nodupKeys hp hq rfl
  exact congrArg Prod.snd hsame

theorem key_unique (ha : (a, p) ∈ t.entries) (hb : (b, p) ∈ t.entries) : a = b := by
  have hsame := List.inj_on_of_nodup_map t.nodupPaths ha hb rfl
  exact congrArg Prod.fst hsame

structure Longest (t : Table κ α) (target : List α) (a : κ) (p : List α) : Prop where
  listed : (a, p) ∈ t.entries
  begins : p <+: target
  longest : ∀ b q, (b, q) ∈ t.entries → q <+: target → q.length ≤ p.length

def Further (t : Table κ α) (target : List α) (a b : κ) : Prop :=
  ∃ p q, (a, p) ∈ t.entries ∧ (b, q) ∈ t.entries ∧ p <+: q ∧ p.length < q.length ∧ q <+: target

theorem Further.mono (hle : s ≤ t) (hab : s.Further target a b) : t.Further target a b := by
  obtain ⟨p, q, ha, hb, hrest⟩ := hab
  exact ⟨p, q, hle ha, hle hb, hrest⟩

/-- A later lookup matches at least as much. -/
theorem Longest.prefix_of_le (hle : s ≤ t) (ha : s.Longest target a p) (hb : t.Longest target b q) :
    p <+: q := by
  have hlength : p.length ≤ q.length := hb.longest a p (hle ha.listed) ha.begins
  exact List.prefix_of_prefix_length_le ha.begins hb.begins hlength

/-- A later lookup that finds another key matches strictly more. -/
theorem Longest.length_lt (hle : s ≤ t) (ha : s.Longest target a p) (hb : t.Longest target b q)
    (hne : a ≠ b) : p.length < q.length := by
  have hpq : p <+: q := ha.prefix_of_le hle hb
  by_contra hlength
  have heq : p = q := hpq.eq_of_length_le (by omega)
  subst heq
  exact hne (key_unique (hle ha.listed) hb.listed)

theorem Longest.further (hle : s ≤ t) (ha : s.Longest target a p) (hb : t.Longest target b q)
    (hne : a ≠ b) : t.Further target a b :=
  ⟨p, q, hle ha.listed, hb.listed, ha.prefix_of_le hle hb, ha.length_lt hle hb hne, hb.begins⟩

theorem Longest.unique (ha : t.Longest target a p) (hb : t.Longest target b q) :
    a = b ∧ p = q := by
  have heq : a = b := by
    by_contra hne
    have hpq := ha.length_lt le_rfl hb hne
    have hqp := hb.length_lt le_rfl ha (Ne.symm hne)
    omega
  subst heq
  exact ⟨rfl, path_unique ha.listed hb.listed⟩

variable [DecidableEq α]

def pathLength (e : κ × List α) : ℕ := e.2.length

def lookup (t : Table κ α) (target : List α) : Option (κ × List α) :=
  (t.entries.filter fun e => e.2.isPrefixOf target).argmax pathLength

theorem longest_of_lookup (hlookup : t.lookup target = some (a, p)) : t.Longest target a p := by
  have hmem := List.mem_filter.mp (List.argmax_mem hlookup)
  refine ⟨hmem.1, List.isPrefixOf_iff_prefix.mp hmem.2, ?_⟩
  intro b q hb hq
  have hcandidate : (b, q) ∈ t.entries.filter fun e => e.2.isPrefixOf target :=
    List.mem_filter.mpr ⟨hb, List.isPrefixOf_iff_prefix.mpr hq⟩
  have hmax : pathLength (b, q) ≤ pathLength (a, p) := List.le_of_mem_argmax hcandidate hlookup
  exact hmax

theorem lookup_eq_some : t.lookup target = some (a, p) ↔ t.Longest target a p := by
  refine ⟨longest_of_lookup, fun ha => ?_⟩
  cases hlookup : t.lookup target with
  | none =>
    have hempty := List.filter_eq_nil_iff.mp (List.argmax_eq_none.mp hlookup)
    exact absurd (List.isPrefixOf_iff_prefix.mpr ha.begins) (hempty (a, p) ha.listed)
  | some e =>
    obtain ⟨rfl, rfl⟩ := (longest_of_lookup hlookup).unique ha
    rfl

end Table

end LongestPrefix
