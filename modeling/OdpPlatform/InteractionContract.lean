import OdpPlatform.InteractionProgram

/-! # Contracts between a program and its environment

`Meets` is the weakest precondition of a program over the history of its events: every call
satisfies the guard at the moment it is issued, and the postcondition holds on return, as long
as the answers are among those the contract relies on. -/
namespace InteractionContract

open InteractionProgram

variable {Call : Type} {Answer : Call → Type} {α β ε σ ι : Type}

structure Contract (Answer : Call → Type) where
  guard : Trace Answer → Call → Prop
  rely : Trace Answer → (c : Call) → Answer c → Prop

def Contract.ofGuard (guard : Trace Answer → Call → Prop) : Contract Answer :=
  ⟨guard, fun _ _ _ => True⟩

def Contract.Admits (K : Contract Answer) (env : Environment Answer) : Prop :=
  ∀ h c r, env h c = some r → K.rely h c r

theorem Contract.ofGuard_admits (guard : Trace Answer → Call → Prop)
    (env : Environment Answer) : (Contract.ofGuard guard).Admits env :=
  fun _ _ _ _ => trivial

def Guarded (guard : Trace Answer → Call → Prop) (τ : Trace Answer) : Prop :=
  ∀ pre e post, τ = pre ++ e :: post → guard pre e.call

theorem guarded_nil (guard : Trace Answer → Call → Prop) : Guarded guard [] := by
  intro pre e post he
  simp at he

/-- A split of a history that just grew: at the last event, or before it. -/
theorem split_snoc {h pre post : Trace Answer} {e x : Event Answer}
    (hsplit : h ++ [x] = pre ++ e :: post) :
    (h = pre ∧ x = e ∧ post = []) ∨ ∃ post', post = post' ++ [x] ∧ h = pre ++ e :: post' := by
  rcases List.eq_nil_or_concat post with rfl | ⟨post', y, rfl⟩
  · obtain ⟨hpre, hx⟩ := List.append_inj' hsplit rfl
    cases hx
    exact .inl ⟨hpre, rfl, rfl⟩
  · rw [List.concat_eq_append, ← List.cons_append, ← List.append_assoc] at hsplit
    obtain ⟨hpre, hx⟩ := List.append_inj' hsplit rfl
    cases hx
    exact .inr ⟨post', List.concat_eq_append, hpre⟩

theorem Guarded.snoc {guard : Trace Answer → Call → Prop} {τ : Trace Answer}
    {e : Event Answer} (hτ : Guarded guard τ) (he : guard τ e.call) :
    Guarded guard (τ ++ [e]) := by
  intro pre x post hx
  rcases split_snoc hx with ⟨rfl, rfl, -⟩ | ⟨post', -, hpre⟩
  · exact he
  · exact hτ pre x post' hpre

theorem guarded_snoc_iff {guard : Trace Answer → Call → Prop} {τ : Trace Answer}
    {e : Event Answer} : Guarded guard (τ ++ [e]) ↔ Guarded guard τ ∧ guard τ e.call := by
  refine ⟨fun hτ => ⟨fun pre x post hx => ?_, hτ τ e [] rfl⟩, fun hτ => hτ.1.snoc hτ.2⟩
  exact hτ pre x (post ++ [e]) (by simp [hx])

def Meets (K : Contract Answer) (Q : Trace Answer → α → Prop) :
    Program Answer α → Trace Answer → Prop
  | .done a, h => Q h a
  | .ask c k, h =>
    K.guard h c ∧ ∀ r, K.rely h c r → Meets K Q (k r) (h ++ [⟨c, some r⟩])
  | .hang, _ => True

variable {K : Contract Answer} {Q R : Trace Answer → α → Prop} {h : Trace Answer}

@[simp] theorem meets_done (a : α) : Meets K Q (.done a) h ↔ Q h a := Iff.rfl
@[simp] theorem meets_hang : Meets K Q .hang h ↔ True := Iff.rfl
@[simp] theorem meets_ask (c : Call) (k : Answer c → Program Answer α) :
    Meets K Q (.ask c k) h ↔
      K.guard h c ∧ ∀ r, K.rely h c r → Meets K Q (k r) (h ++ [⟨c, some r⟩]) := Iff.rfl

theorem Meets.mono {p : Program Answer α} (hp : Meets K Q p h)
    (hq : ∀ h' a, h <+: h' → Q h' a → R h' a) : Meets K R p h := by
  induction p generalizing h with
  | done a => exact hq h a List.prefix_rfl hp
  | ask c k ih =>
    exact ⟨hp.1, fun r hr => ih r (hp.2 r hr)
      fun h' a hh => hq h' a ((List.prefix_append _ _).trans hh)⟩
  | hang => exact True.intro

theorem Meets.bind {p : Program Answer α} {f : α → Program Answer β}
    {S : Trace Answer → β → Prop} (hp : Meets K Q p h)
    (hf : ∀ h' a, h <+: h' → Q h' a → Meets K S (f a) h') : Meets K S (p >>= f) h := by
  induction p generalizing h with
  | done a => exact hf h a List.prefix_rfl hp
  | ask c k ih =>
    exact ⟨hp.1, fun r hr => ih r (hp.2 r hr)
      fun h' a hh => hf h' a ((List.prefix_append _ _).trans hh)⟩
  | hang => exact True.intro

theorem Meets.trivial (hg : ∀ h c, K.guard h c) (p : Program Answer α) (h : Trace Answer) :
    Meets K (fun _ _ => True) p h := by
  induction p generalizing h with
  | done => exact True.intro
  | ask c k ih => exact ⟨hg h c, fun r _ => ih r _⟩
  | hang => exact True.intro

theorem Meets.and {p : Program Answer α} (hq : Meets K Q p h) (hr : Meets K R p h) :
    Meets K (fun h' a => Q h' a ∧ R h' a) p h := by
  induction p generalizing h with
  | done a => exact ⟨hq, hr⟩
  | ask c k ih => exact ⟨hq.1, fun r hrel => ih r (hq.2 r hrel) (hr.2 r hrel)⟩
  | hang => exact True.intro

/-- The loop rule: `I` relates what is left to do to the history and the accumulator. -/
theorem Meets.foldlM {f : σ → ι → Program Answer σ} {I : List ι → Trace Answer → σ → Prop}
    (step : ∀ x xs h s, I (x :: xs) h s → Meets K (I xs) (f s x) h) (xs : List ι) :
    ∀ (h : Trace Answer) (s : σ), I xs h s → Meets K (I []) (xs.foldlM f s) h := by
  induction xs with
  | nil => intro h s hi; exact hi
  | cons x xs ih =>
    intro h s hi
    rw [List.foldlM_cons]
    exact (step x xs h s hi).bind fun h' s' _ hi' => ih h' s' hi'

/-- Soundness: what is proved of a program holds of each of its runs, finished or not. -/
theorem Meets.sound {p : Program Answer α} {env : Environment Answer} (hp : Meets K Q p h)
    (he : K.Admits env) (hg : Guarded K.guard h) :
    Guarded K.guard (p.run env h).1 ∧ ∀ a, (p.run env h).2 = some a → Q (p.run env h).1 a := by
  induction p generalizing h with
  | done a =>
    refine ⟨hg, fun b hb => ?_⟩
    cases hb
    exact hp
  | ask c k ih =>
    cases hr : env h c with
    | none =>
      rw [Program.run_ask_none env h _ hr]
      exact ⟨hg.snoc hp.1, by simp⟩
    | some r =>
      rw [Program.run_ask_some env h _ hr]
      exact ih r (hp.2 r (he h c r hr)) (hg.snoc hp.1)
  | hang => exact ⟨hg, by simp⟩

theorem Meets.guarded {guard : Trace Answer → Call → Prop} {p : Program Answer α}
    (hp : Meets (.ofGuard guard) Q p []) (env : Environment Answer) :
    Guarded guard (p.run env []).1 :=
  (hp.sound (Contract.ofGuard_admits guard env) (guarded_nil guard)).1

theorem Meets.returns {guard : Trace Answer → Call → Prop} {p : Program Answer α}
    (hp : Meets (.ofGuard guard) Q p []) {env : Environment Answer} {a : α}
    (ha : (p.run env []).2 = some a) : Q (p.run env []).1 a :=
  (hp.sound (Contract.ofGuard_admits guard env) (guarded_nil guard)).2 a ha

/-- No call is constrained. -/
abbrev Contract.free : Contract Answer := .ofGuard fun _ _ => True

theorem Meets.run_free {p : Program Answer α} {env : Environment Answer} {h' : Trace Answer} {a : α}
    (hp : Meets .free Q p h) (hrun : p.run env h = (h', some a)) : Q h' a := by
  have hguard : Guarded Contract.free.guard h := fun _ _ _ _ => True.intro
  have hpost := (hp.sound (Contract.ofGuard_admits _ env) hguard).2
  rw [hrun] at hpost
  exact hpost a rfl

/-- `T` holds of the history and the result of every run, also of one that stops at a call that
never comes back. -/
def Ends (T : Trace Answer → Option α → Prop) : Program Answer α → Trace Answer → Prop
  | .done a, h => T h (some a)
  | .ask c k, h => T (h ++ [⟨c, none⟩]) none ∧ ∀ r, Ends T (k r) (h ++ [⟨c, some r⟩])
  | .hang, h => T h none

theorem Ends.sound {T : Trace Answer → Option α → Prop} {p : Program Answer α}
    (hp : Ends T p h) (env : Environment Answer) : T (p.run env h).1 (p.run env h).2 := by
  induction p generalizing h with
  | done a => exact hp
  | ask c k ih =>
    cases hr : env h c with
    | none =>
      rw [Program.run_ask_none env h _ hr]
      exact hp.1
    | some r =>
      rw [Program.run_ask_some env h _ hr]
      exact ih r (hp.2 r)
  | hang => exact hp

theorem Ends.mono {S T : Trace Answer → Option α → Prop} {p : Program Answer α} (hp : Ends S p h)
    (hst : ∀ h' x, S h' x → T h' x) : Ends T p h := by
  induction p generalizing h with
  | done a => exact hst h (some a) hp
  | ask c k ih => exact ⟨hst _ none hp.1, fun r => ih r (hp.2 r)⟩
  | hang => exact hst h none hp

theorem Ends.bind {S : Trace Answer → Option α → Prop} {T : Trace Answer → Option β → Prop}
    {p : Program Answer α} {f : α → Program Answer β} (hp : Ends S p h)
    (hsome : ∀ h' a, S h' (some a) → Ends T (f a) h') (hnone : ∀ h', S h' none → T h' none) :
    Ends T (p >>= f) h := by
  induction p generalizing h with
  | done a => exact hsome h a hp
  | ask c k ih => exact ⟨hnone _ hp.1, fun r => ih r (hp.2 r)⟩
  | hang => exact hnone h hp

/-- The loop rule for whole runs: `N` is what holds where a step never came back. -/
theorem Ends.foldlM {f : σ → ι → Program Answer σ} {I : List ι → Trace Answer → σ → Prop}
    {N : Trace Answer → Prop}
    (step : ∀ x xs h s, I (x :: xs) h s → Ends (fun h' r => r.elim (N h') (I xs h')) (f s x) h)
    (xs : List ι) : ∀ (h : Trace Answer) (s : σ), I xs h s →
      Ends (fun h' r => r.elim (N h') (I [] h')) (xs.foldlM f s) h := by
  induction xs with
  | nil => intro h s hi; exact hi
  | cons x xs ih =>
    intro h s hi
    rw [List.foldlM_cons]
    exact (step x xs h s hi).bind ih fun _ hn => hn

/-- A whole-run property together with a postcondition. -/
theorem Ends.and_meets {T : Trace Answer → Option α → Prop} {p : Program Answer α} (hp : Ends T p h)
    (hq : Meets .free Q p h) : Ends (fun h' x => T h' x ∧ ∀ a, x = some a → Q h' a) p h := by
  induction p generalizing h with
  | done a =>
    refine ⟨hp, ?_⟩
    intro b hb
    cases hb
    exact hq
  | ask c k ih => exact ⟨⟨hp.1, nofun⟩, fun r => ih r (hp.2 r) (hq.2 r True.intro)⟩
  | hang => exact ⟨hp, nofun⟩

/-- Every call of the program, whatever the answers, is among those that `A` allows. -/
def Only (A : Call → Prop) : Program Answer α → Prop
  | .done _ => True
  | .ask c k => A c ∧ ∀ r, Only A (k r)
  | .hang => True

variable {A B : Call → Prop}

@[simp] theorem only_done (a : α) : Only A (.done a : Program Answer α) ↔ True := Iff.rfl
@[simp] theorem only_hang : Only A (.hang : Program Answer α) ↔ True := Iff.rfl
@[simp] theorem only_ask (c : Call) (k : Answer c → Program Answer α) :
    Only A (.ask c k) ↔ A c ∧ ∀ r, Only A (k r) := Iff.rfl
@[simp] theorem only_call (c : Call) : Only A (Program.call c : Program Answer _) ↔ A c := by
  simp [Program.call]

theorem Only.mono {p : Program Answer α} (hp : Only A p) (hab : ∀ c, A c → B c) : Only B p := by
  induction p with
  | done => trivial
  | ask c k ih => exact ⟨hab c hp.1, fun r => ih r (hp.2 r)⟩
  | hang => exact True.intro

theorem Only.bind {p : Program Answer α} {f : α → Program Answer β} (hp : Only A p)
    (hf : ∀ a, Only A (f a)) : Only A (p >>= f) := by
  induction p with
  | done a => exact hf a
  | ask c k ih => exact ⟨hp.1, fun r => ih r (hp.2 r)⟩
  | hang => exact True.intro

theorem Only.foldlM {f : σ → ι → Program Answer σ} (hf : ∀ s x, Only A (f s x)) (xs : List ι) :
    ∀ s, Only A (xs.foldlM f s) := by
  induction xs with
  | nil => intro s; trivial
  | cons x xs ih => intro s; rw [List.foldlM_cons]; exact (hf s x).bind ih

/-- The frame rule: what the allowed calls keep true stays true over the whole program. -/
theorem Only.meets {I : Trace Answer → Prop} {p : Program Answer α} (hp : Only A p)
    (hg : ∀ h c, I h → A c → K.guard h c)
    (hi : ∀ h c r, I h → A c → I (h ++ [⟨c, some r⟩])) (h0 : I h) :
    Meets K (fun h' _ => I h') p h := by
  induction p generalizing h with
  | done => exact h0
  | ask c k ih => exact ⟨hg h c h0 hp.1, fun r _ => ih r (hp.2 r) (hi h c r h0 hp.1)⟩
  | hang => exact True.intro

theorem Only.ends {I : Trace Answer → Prop} {p : Program Answer α} (hp : Only A p)
    (hi : ∀ h e, I h → A e.call → I (h ++ [e])) (h0 : I h) : Ends (fun h' _ => I h') p h := by
  induction p generalizing h with
  | done => exact h0
  | ask c k ih => exact ⟨hi h _ h0 hp.1, fun r => ih r (hp.2 r) (hi h _ h0 hp.1)⟩
  | hang => exact h0

/-- The events a confined program adds to the history are all allowed calls. -/
theorem Only.run {p : Program Answer α} (hp : Only A p) (env : Environment Answer)
    (h : Trace Answer) : ∃ τ, (p.run env h).1 = h ++ τ ∧ ∀ e ∈ τ, A e.call := by
  induction p generalizing h with
  | done => exact ⟨[], by simp, by simp⟩
  | ask c k ih =>
    cases hr : env h c with
    | none =>
      rw [Program.run_ask_none env h _ hr]
      exact ⟨[⟨c, none⟩], rfl, by simpa using hp.1⟩
    | some r =>
      rw [Program.run_ask_some env h _ hr]
      obtain ⟨τ, hτ, hall⟩ := ih r (hp.2 r) (h ++ [⟨c, some r⟩])
      refine ⟨⟨c, some r⟩ :: τ, by simp [hτ], ?_⟩
      simpa [hp.1] using hall
  | hang => exact ⟨[], by simp, by simp⟩

theorem Only.ends_added {p : Program Answer α} (hp : Only A p) (h : Trace Answer) :
    Ends (fun h' _ => ∃ τ, h' = h ++ τ ∧ ∀ e ∈ τ, A e.call) p h := by
  refine hp.ends ?_ ⟨[], (List.append_nil h).symm, List.forall_mem_nil _⟩
  intro h' e ⟨τ, hτ, hall⟩ he
  refine ⟨τ ++ [e], by rw [hτ, List.append_assoc], ?_⟩
  exact List.forall_mem_append.mpr ⟨hall, List.forall_mem_singleton.mpr he⟩

/-- A property of programs that holds of a composition when it holds of the parts. -/
structure Composes (P : (α : Type) → Program Answer α → Prop) : Prop where
  done : ∀ {α : Type} (a : α), P α (.done a)
  bind : ∀ {α β : Type} {p : Program Answer α} {f : α → Program Answer β},
    P α p → (∀ a, P β (f a)) → P β (p >>= f)

theorem Composes.foldlM {P : (α : Type) → Program Answer α → Prop} (hP : Composes P)
    {f : σ → ι → Program Answer σ} (hf : ∀ s x, P σ (f s x)) (xs : List ι) :
    ∀ s, P σ (xs.foldlM f s) := by
  induction xs with
  | nil => exact hP.done
  | cons x xs ih => intro s; rw [List.foldlM_cons]; exact hP.bind (hf s x) ih

theorem Composes.except_bind {P : (α : Type) → Program Answer α → Prop} (hP : Composes P)
    {x : ExceptT ε (Program Answer) α} {f : α → ExceptT ε (Program Answer) β}
    (hx : P (Except ε α) x.run) (hf : ∀ a, P (Except ε β) (f a).run) :
    P (Except ε β) (x >>= f).run := by
  rw [ExceptT.run_bind]
  apply hP.bind hx
  intro r
  cases r with
  | ok a => exact hf a
  | error e => exact hP.done (Except.error e)

theorem Composes.except_foldlM {P : (α : Type) → Program Answer α → Prop} (hP : Composes P)
    {f : σ → ι → ExceptT ε (Program Answer) σ} (hf : ∀ s x, P (Except ε σ) (f s x).run)
    (xs : List ι) : ∀ s, P (Except ε σ) (xs.foldlM f s).run := by
  induction xs with
  | nil => exact fun s => hP.done (Except.ok s)
  | cons x xs ih =>
    intro s
    rw [List.foldlM_cons]
    exact hP.except_bind (hf s x) ih

theorem composes_only (A : Call → Prop) :
    Composes fun (α : Type) (p : Program Answer α) => Only A p :=
  ⟨fun _ => trivial, Only.bind⟩

/-- From a history where `I` holds the program meets the contract and leaves `I` true. -/
def Keeps (K : Contract Answer) (I : Trace Answer → Prop) (p : Program Answer α) : Prop :=
  ∀ h, I h → Meets K (fun h' _ => I h') p h

theorem composes_keeps (K : Contract Answer) (I : Trace Answer → Prop) :
    Composes fun (α : Type) (p : Program Answer α) => Keeps K I p where
  done _ _ hi := hi
  bind hp hf h hi := (hp h hi).bind fun h' a _ hi' => hf a h' hi'

theorem Only.keeps {I : Trace Answer → Prop} {p : Program Answer α} (hp : Only A p)
    (hg : ∀ h c, I h → A c → K.guard h c)
    (hi : ∀ h c r, I h → A c → I (h ++ [⟨c, some r⟩])) : Keeps K I p :=
  fun _ h0 => hp.meets hg hi h0

theorem Only.except_bind {x : ExceptT ε (Program Answer) α} {f : α → ExceptT ε (Program Answer) β}
    (hx : Only A x.run) (hf : ∀ a, Only A (f a).run) : Only A (x >>= f).run :=
  (composes_only A).except_bind hx hf

theorem Meets.except_bind {x : ExceptT ε (Program Answer) α}
    {f : α → ExceptT ε (Program Answer) β} {P : Trace Answer → Except ε α → Prop}
    {S : Trace Answer → Except ε β → Prop} (hx : Meets K P x.run h)
    (hok : ∀ h' a, h <+: h' → P h' (.ok a) → Meets K S (f a).run h')
    (herr : ∀ h' e, h <+: h' → P h' (.error e) → S h' (.error e)) :
    Meets K S (x >>= f).run h := by
  rw [ExceptT.run_bind]
  refine hx.bind fun h' r hh hp => ?_
  cases r with
  | ok a => exact hok h' a hh hp
  | error e => exact herr h' e hh hp

/-- The loop rule for a body that may fail; `I` is known only where the loop got through. -/
theorem Meets.except_foldlM {f : σ → ι → ExceptT ε (Program Answer) σ}
    {I : Trace Answer → σ → Prop}
    (step : ∀ h s x, I h s → Meets K (fun h' r => ∀ s', r = .ok s' → I h' s') (f s x).run h)
    (xs : List ι) : ∀ (h : Trace Answer) (s : σ), I h s →
      Meets K (fun h' r => ∀ s', r = .ok s' → I h' s') (xs.foldlM f s).run h := by
  induction xs with
  | nil =>
    intro h s hi s' hs
    cases hs
    exact hi
  | cons x xs ih =>
    intro h s hi
    rw [List.foldlM_cons]
    exact (step h s x hi).except_bind (fun h' s' _ hi' => ih h' s' (hi' s' rfl)) nofun

end InteractionContract
