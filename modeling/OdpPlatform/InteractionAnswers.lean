import OdpPlatform.InteractionContract

/-! # Programs whose answers do not change

Where the environment gives a call the same answer every time, what a program returns is a
function of those answers; `Yields` says which. -/
namespace InteractionAnswers

open InteractionProgram

variable {Call : Type} {Answer : Call → Type} {α β ε σ ι : Type} {env : Environment Answer}

def Yields (env : Environment Answer) (p : Program Answer α) (a : α) : Prop :=
  ∀ h, ∃ h', p.run env h = (h', some a)

theorem yields_done (a : α) : Yields env (.done a) a := fun h => ⟨h, rfl⟩

theorem yields_ask {c : Call} {r : Answer c} {k : Answer c → Program Answer α} {a : α}
    (hr : ∀ h, env h c = some r) (hk : Yields env (k r) a) : Yields env (.ask c k) a := by
  intro h
  rw [Program.run_ask_some env h k (hr h)]
  exact hk _

theorem yields_call {c : Call} {r : Answer c} (hr : ∀ h, env h c = some r) :
    Yields env (Program.call c) r :=
  yields_ask hr (yields_done r)

theorem Yields.bind {p : Program Answer α} {f : α → Program Answer β} {a : α} {b : β}
    (hp : Yields env p a) (hf : Yields env (f a) b) : Yields env (p >>= f) b := by
  intro h
  obtain ⟨h', hrun⟩ := hp h
  rw [Program.run_bind_some env h hrun]
  exact hf h'

theorem Yields.foldlM {f : σ → ι → Program Answer σ} {g : σ → ι → σ}
    (hf : ∀ s x, Yields env (f s x) (g s x)) (xs : List ι) :
    ∀ s, Yields env (xs.foldlM f s) (xs.foldl g s) := by
  induction xs with
  | nil => exact yields_done
  | cons x xs ih =>
    intro s
    rw [List.foldlM_cons, List.foldl_cons]
    exact (hf s x).bind (ih _)

/-- A loop that collects: each step adds at most one entry. -/
theorem Yields.collect {f : List β → ι → Program Answer (List β)} {g : ι → Option β}
    (hf : ∀ s x, Yields env (f s x) (s ++ (g x).toList)) (xs : List ι) :
    ∀ s, Yields env (xs.foldlM f s) (s ++ xs.filterMap g) := by
  induction xs with
  | nil =>
    intro s
    rw [List.filterMap_nil, List.append_nil]
    exact yields_done s
  | cons x xs ih =>
    intro s
    have hcons : (x :: xs).filterMap g = (g x).toList ++ xs.filterMap g := by
      cases hx : g x with
      | none => rw [List.filterMap_cons_none hx, Option.toList_none, List.nil_append]
      | some y => rw [List.filterMap_cons_some hx, Option.toList_some, List.singleton_append]
    rw [List.foldlM_cons, hcons, ← List.append_assoc]
    exact (hf s x).bind (ih _)

theorem Yields.except_bind {x : ExceptT ε (Program Answer) α} {r : Except ε α}
    {f : α → ExceptT ε (Program Answer) β} {b : Except ε β} (hx : Yields env x.run r)
    (hok : ∀ a, r = .ok a → Yields env (f a).run b) (herr : ∀ e, r = .error e → b = .error e) :
    Yields env (x >>= f).run b := by
  rw [ExceptT.run_bind]
  apply hx.bind
  cases r with
  | ok a => exact hok a rfl
  | error e =>
    rw [herr e rfl]
    exact yields_done _

theorem Yields.except_compose {x : ExceptT ε (Program Answer) α} {r : Except ε α}
    {f : α → ExceptT ε (Program Answer) β} {g : α → Except ε β} (hx : Yields env x.run r)
    (hf : ∀ a, Yields env (f a).run (g a)) : Yields env (x >>= f).run (r >>= g) := by
  apply hx.except_bind
  · intro a ha
    rw [ha]
    exact hf a
  · intro e he
    rw [he]
    rfl

theorem Yields.lift_bind {p : Program Answer α} {a : α} {f : α → ExceptT ε (Program Answer) β}
    {b : Except ε β} (hp : Yields env p a) (hf : Yields env (f a).run b) :
    Yields env ((liftM p : ExceptT ε (Program Answer) α) >>= f).run b := by
  rw [Program.run_lift_bind]
  exact hp.bind hf

theorem Yields.except_foldlM {f : σ → ι → ExceptT ε (Program Answer) σ} {g : σ → ι → Except ε σ}
    (hf : ∀ s x, Yields env (f s x).run (g s x)) (xs : List ι) :
    ∀ s, Yields env (xs.foldlM f s).run (xs.foldlM g s) := by
  induction xs with
  | nil => exact fun s => yields_done _
  | cons x xs ih =>
    intro s
    rw [List.foldlM_cons, List.foldlM_cons]
    exact (hf s x).except_compose ih

end InteractionAnswers
