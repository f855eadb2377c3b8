import OdpPlatform.InteractionEmbedding

/-! # Monitors

A monitor folds the history into a state and says which calls that state permits. Programs are
verified against the states alone, and the histories come back in the soundness theorem. -/
namespace InteractionMonitor

open InteractionProgram InteractionContract InteractionTraces InteractionEmbedding

variable {Call Call' : Type} {Answer : Call → Type} {Answer' : Call' → Type} {α β ε σ τ ι : Type}

structure Monitor (Answer : Call → Type) (σ : Type) where
  start : σ
  step : σ → Event Answer → σ
  permits : σ → Call → Prop
  relies : σ → (c : Call) → Answer c → Prop := fun _ _ _ => True

namespace Monitor

variable (M : Monitor Answer σ)

def state (h : Trace Answer) : σ := h.foldl M.step M.start

@[simp] theorem state_snoc (h : Trace Answer) (e : Event Answer) :
    M.state (h ++ [e]) = M.step (M.state h) e := by
  simp [state]

def contract : Contract Answer where
  guard h c := M.permits (M.state h) c
  rely h c r := M.relies (M.state h) c r

/-- Every call is permitted by the state it is issued in, and `Q` holds on return. -/
def Steps (Q : σ → α → Prop) : Program Answer α → σ → Prop
  | .done a, s => Q s a
  | .ask c k, s =>
    M.permits s c ∧ ∀ r, M.relies s c r → Steps Q (k r) (M.step s ⟨c, some r⟩)
  | .hang, _ => True

variable {M} {Q R : σ → α → Prop} {s : σ}

@[simp] theorem steps_done (a : α) : M.Steps Q (.done a) s ↔ Q s a := Iff.rfl
@[simp] theorem steps_hang : M.Steps Q (.hang : Program Answer α) s ↔ True := Iff.rfl
@[simp] theorem steps_ask (c : Call) (k : Answer c → Program Answer α) :
    M.Steps Q (.ask c k) s ↔
      M.permits s c ∧ ∀ r, M.relies s c r → M.Steps Q (k r) (M.step s ⟨c, some r⟩) := Iff.rfl

theorem Steps.call_bind {c : Call} {f : Answer c → Program Answer α} (hc : M.permits s c)
    (hf : ∀ r, M.relies s c r → M.Steps Q (f r) (M.step s ⟨c, some r⟩)) :
    M.Steps Q (Program.call c >>= f) s := ⟨hc, hf⟩

theorem Steps.mono {p : Program Answer α} (hp : M.Steps Q p s) (hqr : ∀ s a, Q s a → R s a) :
    M.Steps R p s := by
  induction p generalizing s with
  | done a => exact hqr s a hp
  | ask c k ih => exact ⟨hp.1, fun r hr => ih r (hp.2 r hr)⟩
  | hang => trivial

theorem Steps.bind {p : Program Answer α} {f : α → Program Answer β} {S : σ → β → Prop}
    (hp : M.Steps Q p s) (hf : ∀ s a, Q s a → M.Steps S (f a) s) : M.Steps S (p >>= f) s := by
  induction p generalizing s with
  | done a => exact hf s a hp
  | ask c k ih => exact ⟨hp.1, fun r hr => ih r (hp.2 r hr)⟩
  | hang => trivial

/-- The loop rule: `I` relates what is left to do to the state and the accumulator. -/
theorem Steps.foldlM {f : τ → ι → Program Answer τ} {I : List ι → σ → τ → Prop}
    (step : ∀ x xs s t, I (x :: xs) s t → M.Steps (I xs) (f t x) s) (xs : List ι) :
    ∀ (s : σ) (t : τ), I xs s t → M.Steps (I []) (xs.foldlM f t) s := by
  induction xs with
  | nil => exact fun s t hi => hi
  | cons x xs ih =>
    intro s t hi
    rw [List.foldlM_cons]
    exact (step x xs s t hi).bind ih

theorem Steps.except_bind {x : ExceptT ε (Program Answer) α}
    {f : α → ExceptT ε (Program Answer) β} {P : σ → Except ε α → Prop}
    {S : σ → Except ε β → Prop} (hx : M.Steps P x.run s)
    (hok : ∀ s a, P s (.ok a) → M.Steps S (f a).run s)
    (herr : ∀ s e, P s (.error e) → S s (.error e)) : M.Steps S (x >>= f).run s := by
  rw [ExceptT.run_bind]
  apply hx.bind
  intro s r hp
  cases r with
  | ok a => exact hok s a hp
  | error e => exact herr s e hp

/-- A program all of whose calls are permitted in, and leave alone, the states of `I`. -/
theorem steps_of_only {A : Call → Prop} {I : σ → Prop} {p : Program Answer α} (hp : Only A p)
    (hpermits : ∀ s c, I s → A c → M.permits s c)
    (hstep : ∀ s c r, I s → A c → I (M.step s ⟨c, some r⟩)) (hs : I s) :
    M.Steps (fun s _ => I s) p s := by
  induction p generalizing s with
  | done a => exact hs
  | ask c k ih => exact ⟨hpermits s c hs hp.1, fun r _ => ih r (hp.2 r) (hstep s c r hs hp.1)⟩
  | hang => trivial

/-- Keeping the states of `I` composes. -/
theorem composes_steps (M : Monitor Answer σ) (I : σ → Prop) :
    Composes fun (α : Type) (p : Program Answer α) => ∀ s, I s → M.Steps (fun s _ => I s) p s where
  done _ _ hs := hs
  bind hp hf s hs := (hp s hs).bind fun s' a hs' => hf a s' hs'

theorem meets_of_steps {p : Program Answer α} :
    ∀ {h : Trace Answer}, M.Steps Q p (M.state h) →
      Meets M.contract (fun h' a => Q (M.state h') a) p h := by
  induction p with
  | done a => exact fun hp => hp
  | ask c k ih =>
    intro h hp
    refine ⟨hp.1, ?_⟩
    intro r hr
    apply ih r
    rw [state_snoc]
    exact hp.2 r hr
  | hang => exact fun _ => trivial

/-- Soundness: every call of every run, finished or not, was permitted when it was issued. -/
theorem Steps.sound {p : Program Answer α} {env : Environment Answer}
    (hp : M.Steps Q p M.start) (henv : M.contract.Admits env) :
    Guarded M.contract.guard (p.run env []).1 ∧
      ∀ a, (p.run env []).2 = some a → Q (M.state (p.run env []).1) a :=
  (meets_of_steps (h := []) hp).sound henv (guarded_nil _)

theorem Steps.guarded {p : Program Answer α} (hp : M.Steps Q p M.start)
    (hfree : ∀ s c r, M.relies s c r) (env : Environment Answer) :
    Guarded (fun h c => M.permits (M.state h) c) (p.run env []).1 :=
  (hp.sound fun _ _ _ _ => hfree _ _ _).1

theorem Steps.returns {p : Program Answer α} (hp : M.Steps Q p M.start)
    (hfree : ∀ s c r, M.relies s c r) {env : Environment Answer} {a : α}
    (ha : (p.run env []).2 = some a) : Q (M.state (p.run env []).1) a :=
  (hp.sound fun _ _ _ _ => hfree _ _ _).2 a ha

/-- The monitor of the larger interface, for programs of the smaller one. -/
def below (E : Embedding Answer Answer') (M : Monitor Answer' σ) : Monitor Answer σ where
  start := M.start
  step s e := M.step s (E.event e)
  permits s c := M.permits s (E.call c)
  relies s c r := M.relies s (E.call c) (E.answer c r)

theorem steps_program {E : Embedding Answer Answer'} {M : Monitor Answer' σ} {Q : σ → α → Prop}
    {p : Program Answer α} : ∀ {s : σ}, (M.below E).Steps Q p s → M.Steps Q (E.program p) s := by
  induction p with
  | done a => exact fun hp => hp
  | ask c k ih =>
    intro s hp
    refine ⟨hp.1, ?_⟩
    intro r hr
    have hback : (E.answer c) ((E.answer c).symm r) = r := Equiv.apply_symm_apply _ r
    have hnext := hp.2 ((E.answer c).symm r) (by
      change M.relies _ _ ((E.answer c) ((E.answer c).symm r))
      rwa [hback])
    have hsame : (M.below E).step s ⟨c, some ((E.answer c).symm r)⟩ =
        M.step s ⟨E.call c, some r⟩ := by
      change M.step s ⟨E.call c, some ((E.answer c) ((E.answer c).symm r))⟩ = _
      rw [hback]
    rw [hsame] at hnext
    exact ih _ hnext
  | hang => exact fun _ => trivial

/-- A list in the state that grows with what some of the events carry. -/
theorem projection {M : Monitor Answer σ} (entries : σ → List τ)
    {carries : Event Answer → Option τ} (hstart : entries M.start = [])
    (hstep : ∀ s e, entries (M.step s e) = entries s ++ (carries e).toList) (h : Trace Answer) :
    entries (M.state h) = h.filterMap carries := by
  induction h using List.reverseRecOn with
  | nil => exact hstart
  | append_singleton h e ih =>
    rw [state_snoc, hstep, ih, List.filterMap_append]
    cases he : carries e with
    | none => rw [List.filterMap_cons_none he]; rfl
    | some x => rw [List.filterMap_cons_some he]; rfl

end Monitor

section Histories

variable {env : Environment Answer} {guard : Trace Answer → Call → Prop} {h : Trace Answer}

/-- Every event carries the environment's answer to its call. -/
def AnsweredBy (env : Environment Answer) (τ : Trace Answer) : Prop :=
  ∀ pre e post, τ = pre ++ e :: post → e.answer = env pre e.call

theorem answeredBy_nil (env : Environment Answer) : AnsweredBy env [] := by
  intro pre e post he
  simp at he

theorem AnsweredBy.snoc {e : Event Answer} (hh : AnsweredBy env h)
    (he : e.answer = env h e.call) : AnsweredBy env (h ++ [e]) := by
  intro pre x post hx
  rcases split_snoc hx with ⟨rfl, rfl, -⟩ | ⟨post', -, hpre⟩
  · exact he
  · exact hh pre x post' hpre

theorem AnsweredBy.initial {pre post : Trace Answer} (hh : AnsweredBy env (pre ++ post)) :
    AnsweredBy env pre := by
  intro p e q hsplit
  apply hh p e (q ++ post)
  rw [hsplit, List.append_assoc, List.cons_append]

theorem guarded_initial {pre post : Trace Answer} (hh : Guarded guard (pre ++ post)) :
    Guarded guard pre := by
  intro p e q hsplit
  apply hh p e (q ++ post)
  rw [hsplit, List.append_assoc, List.cons_append]

theorem run_answeredBy (p : Program Answer α) (hh : AnsweredBy env h) :
    AnsweredBy env (p.run env h).1 := by
  induction p generalizing h with
  | done a => exact hh
  | ask c k ih =>
    cases hr : env h c with
    | none =>
      rw [Program.run_ask_none env h k hr]
      exact hh.snoc hr.symm
    | some r =>
      rw [Program.run_ask_some env h k hr]
      exact ih r (hh.snoc hr.symm)
  | hang => exact hh

/-- What every guarded and answered event preserves holds of every such history. -/
theorem guarded_induction {I : Trace Answer → Prop} (hnil : I [])
    (hsnoc : ∀ h e, I h → guard h e.call → e.answer = env h e.call → I (h ++ [e]))
    (h : Trace Answer) (hguard : Guarded guard h) (hanswer : AnsweredBy env h) : I h := by
  induction h using List.reverseRecOn with
  | nil => exact hnil
  | append_singleton h e ih =>
    obtain ⟨hbefore, hlast⟩ := guarded_snoc_iff.mp hguard
    exact hsnoc h e (ih hbefore hanswer.initial) hlast (hanswer h e [] rfl)

/-- A program that terminates and is followed by one that does, given what the first returns. -/
theorem terminates_bind_meets {p : Program Answer α} {f : α → Program Answer β} {Q : α → Prop}
    (hp : Terminates p) (hq : Meets .free (fun _ a => Q a) p h)
    (hf : ∀ a, Q a → Terminates (f a)) : Terminates (p >>= f) := by
  induction p generalizing h with
  | done a => exact hf a hq
  | ask c k ih => exact fun r => ih r (hp r) (hq.2 r trivial)
  | hang => exact hp.elim

end Histories

end InteractionMonitor
