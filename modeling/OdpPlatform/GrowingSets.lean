import Mathlib.Data.Set.Lattice
import Mathlib.Order.CompletePartialOrder

/-! # Sets that grow element by element

An element can be added once it is enabled, and what is in a set enables more. However the elements
are chosen, a set that has grown until nothing is enabled outside it is the least closed one. -/
namespace GrowingSets

variable {κ : Type*} {candidates : Set κ} {enabled : Set κ → Set κ} {X Y Z : Set κ}

def Closed (candidates : Set κ) (enabled : Set κ → Set κ) (X : Set κ) : Prop :=
  ∀ c ∈ candidates, c ∈ enabled X → c ∈ X

inductive Grows (candidates : Set κ) (enabled : Set κ → Set κ) (X : Set κ) : Set κ → Prop where
  | refl : Grows candidates enabled X X
  | add {Y : Set κ} {c : κ} : Grows candidates enabled X Y → c ∈ candidates → c ∈ enabled Y →
      Grows candidates enabled X (insert c Y)

theorem Grows.trans (h : Grows candidates enabled X Y) (k : Grows candidates enabled Y Z) :
    Grows candidates enabled X Z := by
  induction k with
  | refl => exact h
  | add _ hc henabled ih => exact ih.add hc henabled

theorem Grows.subset (h : Grows candidates enabled X Y) : X ⊆ Y := by
  induction h with
  | refl => exact subset_rfl
  | add _ _ _ ih => exact ih.trans (Set.subset_insert _ _)

/-- What has been added stays enabled. -/
theorem Grows.mem_enabled (hmono : Monotone enabled) (h : Grows candidates enabled X Y) {c : κ}
    (hc : c ∈ Y) : c ∈ X ∨ c ∈ enabled Y := by
  induction h with
  | refl => exact .inl hc
  | @add Y d _ _ henabled ih =>
    have hsub : enabled Y ⊆ enabled (insert d Y) := hmono (Set.subset_insert d Y)
    obtain hcd | hcY := Set.mem_insert_iff.mp hc
    · rw [hcd]
      exact .inr (hsub henabled)
    · exact (ih hcY).imp_right fun hin => hsub hin

/-- Growth stays inside every closed set. -/
theorem Grows.subset_closed (hmono : Monotone enabled) (h : Grows candidates enabled X Y)
    (hZ : Closed candidates enabled Z) (hX : X ⊆ Z) : Y ⊆ Z := by
  induction h with
  | refl => exact hX
  | add _ hc henabled ih => exact Set.insert_subset (hZ _ hc (hmono ih henabled)) ih

theorem Grows.isLeast (hmono : Monotone enabled) (h : Grows candidates enabled X Y)
    (hY : Closed candidates enabled Y) :
    IsLeast {Z | X ⊆ Z ∧ Closed candidates enabled Z} Y :=
  ⟨⟨h.subset, hY⟩, fun _ hZ => h.subset_closed hmono hZ.2 hZ.1⟩

end GrowingSets
