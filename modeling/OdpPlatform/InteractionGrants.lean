import OdpPlatform.InteractionMonitor

/-! # Programs that get what they ask for

`Achieves` is total correctness: wherever the environment answers each permitted call as the
monitor relies on, the program returns, and the postcondition holds. `AnswersAlong` speaks of
the calls of one run only. -/
namespace InteractionGrants

open InteractionProgram InteractionMonitor

variable {Call : Type} {Answer : Call → Type} {σ α β : Type}

def Achieves (M : Monitor Answer σ) (Q : σ → α → Prop) : Program Answer α → σ → Prop
  | .done a, s => Q s a
  | .ask c k, s =>
    M.permits s c ∧ ∀ r, M.relies s c r → Achieves M Q (k r) (M.step s ⟨c, some r⟩)
  | .hang, _ => False

def Supplies (M : Monitor Answer σ) (env : Environment Answer) : Prop :=
  ∀ h c, M.permits (M.state h) c → ∃ r, env h c = some r ∧ M.relies (M.state h) c r

variable {M : Monitor Answer σ} {Q R : σ → α → Prop} {p : Program Answer α} {s : σ}

theorem Achieves.call_bind {c : Call} {f : Answer c → Program Answer α} (hc : M.permits s c)
    (hf : ∀ r, M.relies s c r → Achieves M Q (f r) (M.step s ⟨c, some r⟩)) :
    Achieves M Q (Program.call c >>= f) s := ⟨hc, hf⟩

theorem Achieves.mono (hp : Achieves M Q p s) (hqr : ∀ s a, Q s a → R s a) : Achieves M R p s := by
  induction p generalizing s with
  | done a => exact hqr s a hp
  | ask c k ih => exact ⟨hp.1, fun r hr => ih r (hp.2 r hr)⟩
  | hang => exact hp

theorem Achieves.bind {f : α → Program Answer β} {T : σ → β → Prop} (hp : Achieves M Q p s)
    (hf : ∀ s a, Q s a → Achieves M T (f a) s) : Achieves M T (p >>= f) s := by
  induction p generalizing s with
  | done a => exact hf s a hp
  | ask c k ih => exact ⟨hp.1, fun r hr => ih r (hp.2 r hr)⟩
  | hang => exact hp.elim

/-- Soundness: every run on such an environment comes back. -/
theorem Achieves.run {env : Environment Answer} (henv : Supplies M env) :
    ∀ {h : Trace Answer}, Achieves M Q p (M.state h) →
      ∃ h' a, p.run env h = (h', some a) ∧ Q (M.state h') a := by
  induction p with
  | done a => exact fun {h} hp => ⟨h, a, rfl, hp⟩
  | ask c k ih =>
    intro h hp
    obtain ⟨r, hr, hrelies⟩ := henv h c hp.1
    have hnext := hp.2 r hrelies
    rw [← Monitor.state_snoc] at hnext
    rw [Program.run_ask_some env h k hr]
    exact ih r hnext
  | hang => exact fun hp => hp.elim

/-- Each call that the program makes from the history `h` on is answered as `R` says. -/
def AnswersAlong (R : Trace Answer → (c : Call) → Option (Answer c) → Prop)
    (env : Environment Answer) : Program Answer α → Trace Answer → Prop
  | .done _, _ => True
  | .ask c k, h =>
    R h c (env h c) ∧ ∀ r, env h c = some r → AnswersAlong R env (k r) (h ++ [⟨c, some r⟩])
  | .hang, _ => True

section Along

variable {R : Trace Answer → (c : Call) → Option (Answer c) → Prop} {env : Environment Answer}
  {f : α → Program Answer β}

theorem answersAlong_of_forall (henv : ∀ h c, R h c (env h c)) (p : Program Answer α) :
    ∀ h, AnswersAlong R env p h := by
  induction p with
  | done a => exact fun _ => trivial
  | ask c k ih => exact fun h => ⟨henv h c, fun r _ => ih r _⟩
  | hang => exact fun _ => trivial

theorem AnswersAlong.bind_left : ∀ {h : Trace Answer}, AnswersAlong R env (p >>= f) h →
    AnswersAlong R env p h := by
  induction p with
  | done a => exact fun _ => trivial
  | ask c k ih => exact fun hp => ⟨hp.1, fun r hr => ih r (hp.2 r hr)⟩
  | hang => exact fun _ => trivial

theorem AnswersAlong.bind_right {h' : Trace Answer} {a : α} :
    ∀ {h : Trace Answer}, AnswersAlong R env (p >>= f) h → p.run env h = (h', some a) →
      AnswersAlong R env (f a) h' := by
  induction p with
  | done a =>
    rintro h hp ⟨⟩
    exact hp
  | ask c k ih =>
    intro h hp hrun
    obtain ⟨r, hr, hrest⟩ := Program.run_ask_returns env h hrun
    exact ih r (hp.2 r hr) hrest
  | hang =>
    rintro h - ⟨⟩

end Along

end InteractionGrants
