import Mathlib.Data.List.Basic

/-! # Reading up to the first item that is rejected

A reader takes items as long as it accepts them; the one it rejects is the last it has seen. -/
namespace FirstRejection

variable {α : Type} {p q : α → Prop} {x : α} {xs : List α}

/-- The readers decide alike on every item that both of them reach. -/
def AgreeOn (p q : α → Prop) (xs : List α) : Prop :=
  ∀ pre x post, xs = pre ++ x :: post → (∀ y ∈ pre, p y ∧ q y) → (p x ↔ q x)

theorem agreeOn_nil : AgreeOn p q [] := by
  intro pre x post hsplit
  simp at hsplit

theorem agreeOn_cons :
    AgreeOn p q (x :: xs) ↔ (p x ↔ q x) ∧ (p x → q x → AgreeOn p q xs) := by
  constructor
  · intro hagree
    constructor
    · exact hagree [] x xs rfl nofun
    · rintro hp hq pre y post rfl hpre
      apply hagree (x :: pre) y post rfl
      intro z hz
      rcases List.mem_cons.mp hz with rfl | hz
      · exact ⟨hp, hq⟩
      · exact hpre z hz
  · rintro ⟨hx, hxs⟩ pre y post hsplit hpre
    cases pre with
    | nil =>
      obtain ⟨rfl, rfl⟩ := List.cons_eq_cons.mp hsplit
      exact hx
    | cons z pre =>
      obtain ⟨rfl, rfl⟩ := List.cons_eq_cons.mp hsplit
      obtain ⟨hp, hq⟩ := hpre x List.mem_cons_self
      exact hxs hp hq pre y post rfl fun w hw => hpre w (List.mem_cons_of_mem x hw)

variable [DecidablePred p] [DecidablePred q]

def consumed (p : α → Prop) [DecidablePred p] : List α → List α
  | [] => []
  | x :: xs => if p x then x :: consumed p xs else [x]

theorem consumed_accepted (hx : p x) : consumed p (x :: xs) = x :: consumed p xs := if_pos hx

theorem consumed_rejected (hx : ¬p x) : consumed p (x :: xs) = [x] := if_neg hx

theorem consumed_eq_nil : consumed p xs = [] ↔ xs = [] := by
  cases xs with
  | nil => exact Iff.rfl
  | cons x xs =>
    by_cases hx : p x
    · simp [consumed_accepted hx]
    · simp [consumed_rejected hx]

theorem consumed_of_forall (hxs : ∀ x ∈ xs, p x) : consumed p xs = xs := by
  induction xs with
  | nil => rfl
  | cons x xs ih =>
    rw [consumed_accepted (hxs x List.mem_cons_self),
      ih fun y hy => hxs y (List.mem_cons_of_mem x hy)]

theorem not_all_agree (hp : p x) (hq : ¬q x) :
    ¬(consumed p (x :: xs) = consumed q (x :: xs) ∧
      ((∀ y ∈ x :: xs, p y) ↔ ∀ y ∈ x :: xs, q y)) := by
  rintro ⟨hconsumed, hall⟩
  rw [consumed_accepted hp, consumed_rejected hq] at hconsumed
  obtain rfl := consumed_eq_nil.mp (List.cons_eq_cons.mp hconsumed).2
  have hpx : ∀ y ∈ [x], p y := by
    intro y hy
    rwa [List.mem_singleton.mp hy]
  exact hq (hall.mp hpx x List.mem_cons_self)

/-- Two readers see the same items with the same outcome exactly when they agree on the way. -/
theorem agreeOn_iff : AgreeOn p q xs ↔
    consumed p xs = consumed q xs ∧ ((∀ x ∈ xs, p x) ↔ ∀ x ∈ xs, q x) := by
  induction xs with
  | nil => exact ⟨fun _ => ⟨rfl, by simp⟩, fun _ => agreeOn_nil⟩
  | cons x xs ih =>
    rw [agreeOn_cons]
    by_cases hp : p x
    · by_cases hq : q x
      · rw [consumed_accepted hp, consumed_accepted hq, List.forall_mem_cons, List.forall_mem_cons]
        simp only [hp, hq, true_and, forall_const, List.cons.injEq]
        exact ih
      · constructor
        · rintro ⟨hx, -⟩
          exact absurd (hx.mp hp) hq
        · intro hsame
          exact absurd hsame (not_all_agree hp hq)
    · by_cases hq : q x
      · constructor
        · rintro ⟨hx, -⟩
          exact absurd (hx.mpr hq) hp
        · rintro ⟨hconsumed, hall⟩
          exact absurd ⟨hconsumed.symm, hall.symm⟩ (not_all_agree hq hp)
      · rw [consumed_rejected hp, consumed_rejected hq, List.forall_mem_cons, List.forall_mem_cons]
        simp [hp, hq]

end FirstRejection
