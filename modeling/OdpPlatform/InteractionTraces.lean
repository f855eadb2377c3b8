import OdpPlatform.InteractionContract

/-! # The traces of a program

`Performs p τ x` relates a program to what one run of it adds to the history and to its result,
with no environment in between: each call may get any answer, or none. -/
namespace InteractionTraces

open InteractionProgram InteractionContract

variable {Call : Type} {Answer : Call → Type} {α β ε : Type}

def Performs : Program Answer α → Trace Answer → Option α → Prop
  | .done a, τ, x => τ = [] ∧ x = some a
  | .ask c k, τ, x =>
    (τ = [⟨c, none⟩] ∧ x = none) ∨ ∃ r ρ, τ = ⟨c, some r⟩ :: ρ ∧ Performs (k r) ρ x
  | .hang, τ, x => τ = [] ∧ x = none

variable {τ : Trace Answer}

@[simp] theorem performs_done {a : α} {x : Option α} :
    Performs (.done a : Program Answer α) τ x ↔ τ = [] ∧ x = some a := Iff.rfl
@[simp] theorem performs_hang {x : Option α} :
    Performs (.hang : Program Answer α) τ x ↔ τ = [] ∧ x = none := Iff.rfl

theorem performs_ask {c : Call} {k : Answer c → Program Answer α} {x : Option α} :
    Performs (.ask c k) τ x ↔
      (τ = [⟨c, none⟩] ∧ x = none) ∨ ∃ r ρ, τ = ⟨c, some r⟩ :: ρ ∧ Performs (k r) ρ x := Iff.rfl

/-- Every run is one of the program's traces, whatever the environment. -/
theorem performs_run (p : Program Answer α) (env : Environment Answer) (h : Trace Answer) :
    ∃ τ, (p.run env h).1 = h ++ τ ∧ Performs p τ (p.run env h).2 := by
  induction p generalizing h with
  | done a => exact ⟨[], (List.append_nil h).symm, rfl, rfl⟩
  | ask c k ih =>
    cases hr : env h c with
    | none =>
      rw [Program.run_ask_none env h _ hr]
      exact ⟨[⟨c, none⟩], rfl, .inl ⟨rfl, rfl⟩⟩
    | some r =>
      rw [Program.run_ask_some env h _ hr]
      obtain ⟨ρ, hρ, hp⟩ := ih r (h ++ [⟨c, some r⟩])
      refine ⟨⟨c, some r⟩ :: ρ, ?_, .inr ⟨r, ρ, rfl, hp⟩⟩
      rw [hρ, List.append_assoc]
      rfl
  | hang => exact ⟨[], (List.append_nil h).symm, rfl, rfl⟩

/-- A trace of `p >>= f` is one of `p`, followed by one of `f` where `p` returned. -/
theorem performs_bind {p : Program Answer α} {f : α → Program Answer β} {x : Option β} :
    Performs (p >>= f) τ x ↔
      (∃ σ a ρ, Performs p σ (some a) ∧ Performs (f a) ρ x ∧ τ = σ ++ ρ) ∨
        (Performs p τ none ∧ x = none) := by
  induction p generalizing τ with
  | done a =>
    rw [Program.done_bind]
    constructor
    · intro hf
      exact .inl ⟨[], a, τ, ⟨rfl, rfl⟩, hf, rfl⟩
    · rintro (⟨σ, b, ρ, ⟨rfl, hb⟩, hf, rfl⟩ | ⟨⟨-, hnone⟩, -⟩)
      · cases hb
        exact hf
      · cases hnone
  | ask c k ih =>
    rw [Program.ask_bind]
    constructor
    · rintro (⟨rfl, rfl⟩ | ⟨r, ρ, rfl, hk⟩)
      · exact .inr ⟨.inl ⟨rfl, rfl⟩, rfl⟩
      · rcases (ih r).mp hk with ⟨σ, a, ρ, hp, hf, rfl⟩ | ⟨hp, rfl⟩
        · exact .inl ⟨⟨c, some r⟩ :: σ, a, ρ, .inr ⟨r, σ, rfl, hp⟩, hf, rfl⟩
        · exact .inr ⟨.inr ⟨r, ρ, rfl, hp⟩, rfl⟩
    · rintro (⟨σ, a, ρ, ⟨-, hnone⟩ | ⟨r, σ', rfl, hp⟩, hf, rfl⟩ | ⟨⟨rfl, -⟩ | ⟨r, ρ, rfl, hp⟩, rfl⟩)
      · cases hnone
      · exact .inr ⟨r, σ' ++ ρ, rfl, (ih r).mpr (.inl ⟨σ', a, ρ, hp, hf, rfl⟩)⟩
      · exact .inl ⟨rfl, rfl⟩
      · exact .inr ⟨r, ρ, rfl, (ih r).mpr (.inr ⟨hp, rfl⟩)⟩
  | hang =>
    rw [Program.hang_bind]
    constructor
    · rintro ⟨rfl, rfl⟩
      exact .inr ⟨⟨rfl, rfl⟩, rfl⟩
    · rintro (⟨σ, a, ρ, ⟨-, hnone⟩, -, -⟩ | ⟨⟨rfl, -⟩, rfl⟩)
      · cases hnone
      · exact ⟨rfl, rfl⟩

/-- One call: the event carries the answer that is also the result. -/
@[simp] theorem performs_call {c : Call} {x : Option (Answer c)} :
    Performs (Program.call c) τ x ↔ τ = [⟨c, x⟩] := by
  constructor
  · rintro (⟨rfl, rfl⟩ | ⟨r, ρ, rfl, rfl, rfl⟩)
    · rfl
    · rfl
  · rintro rfl
    cases x with
    | none => exact .inl ⟨rfl, rfl⟩
    | some r => exact .inr ⟨r, [], rfl, rfl, rfl⟩

theorem Only.performs {A : Call → Prop} {p : Program Answer α} {x : Option α} (hp : Only A p)
    (hτ : Performs p τ x) : ∀ e ∈ τ, A e.call := by
  induction p generalizing τ with
  | done a =>
    obtain ⟨rfl, -⟩ := hτ
    nofun
  | ask c k ih =>
    rcases hτ with ⟨rfl, -⟩ | ⟨r, ρ, rfl, hk⟩
    · intro e he
      cases List.mem_singleton.mp he
      exact hp.1
    · intro e he
      rcases List.mem_cons.mp he with rfl | he
      · exact hp.1
      · exact ih r (hp.2 r) hk e he
  | hang =>
    obtain ⟨rfl, -⟩ := hτ
    nofun

/-- On return the history has grown by one of the program's traces. -/
theorem Meets.performs {K : Contract Answer} {Q : Trace Answer → α → Prop} {h : Trace Answer}
    {p : Program Answer α} (hp : Meets K Q p h) :
    Meets K (fun h' a => Q h' a ∧ ∃ τ, h' = h ++ τ ∧ Performs p τ (some a)) p h := by
  induction p generalizing h with
  | done a => exact ⟨hp, [], (List.append_nil h).symm, rfl, rfl⟩
  | ask c k ih =>
    refine ⟨hp.1, fun r hr => (ih r (hp.2 r hr)).mono fun h' a _ ⟨hq, τ, hτ, hperforms⟩ => ?_⟩
    refine ⟨hq, ⟨c, some r⟩ :: τ, ?_, .inr ⟨r, τ, rfl, hperforms⟩⟩
    rw [hτ, List.append_assoc]
    rfl
  | hang => trivial

/-- The last call never came back. -/
def Unanswered (τ : Trace Answer) : Prop := ∃ pre c, τ = pre ++ [⟨c, none⟩]

theorem unanswered_singleton (c : Call) : Unanswered [(⟨c, none⟩ : Event Answer)] := ⟨[], c, rfl⟩

theorem Unanswered.append (σ : Trace Answer) (hτ : Unanswered τ) : Unanswered (σ ++ τ) := by
  obtain ⟨pre, c, rfl⟩ := hτ
  exact ⟨σ ++ pre, c, (List.append_assoc σ pre _).symm⟩

/-- The program returns once every call does. -/
def Terminates : Program Answer α → Prop
  | .done _ => True
  | .ask _ k => ∀ r, Terminates (k r)
  | .hang => False

theorem composes_terminates : Composes fun (α : Type) (p : Program Answer α) => Terminates p where
  done _ := trivial
  bind := by
    intro α β p f hp hf
    induction p with
    | done a => exact hf a
    | ask c k ih => exact fun r => ih r (hp r)
    | hang => exact hp.elim

theorem terminates_call (c : Call) : Terminates (Program.call c : Program Answer _) :=
  fun _ => trivial

theorem Terminates.unanswered {p : Program Answer α} (hp : Terminates p) (hτ : Performs p τ none) :
    Unanswered τ := by
  induction p generalizing τ with
  | done a => cases hτ.2
  | ask c k ih =>
    rcases hτ with ⟨rfl, -⟩ | ⟨r, ρ, rfl, hk⟩
    · exact unanswered_singleton c
    · exact (ih r (hp r) hk).append [⟨c, some r⟩]
  | hang => exact hp.elim

end InteractionTraces
