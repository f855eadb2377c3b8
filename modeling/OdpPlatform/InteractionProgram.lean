import Mathlib.Data.List.Basic
import Mathlib.Data.List.Infix

/-! # Programs that interact with an environment

A program returns a value, asks its environment and continues with the answer, or hangs.
An environment is any function of the events so far, so one theorem about all environments
speaks about every combination of answers, those that never come included. -/
namespace InteractionProgram

variable {Call : Type} {Answer : Call → Type} {α β γ : Type}

inductive Program (Answer : Call → Type) (α : Type) : Type where
  | done (a : α)
  | ask (c : Call) (k : Answer c → Program Answer α)
  | hang

/-- A call together with its answer; `none` when the call never came back. -/
structure Event (Answer : Call → Type) where
  call : Call
  answer : Option (Answer call)

abbrev Trace (Answer : Call → Type) := List (Event Answer)
abbrev Environment (Answer : Call → Type) := Trace Answer → (c : Call) → Option (Answer c)

namespace Program

def bind : Program Answer α → (α → Program Answer β) → Program Answer β
  | .done a, f => f a
  | .ask c k, f => .ask c (fun r => (k r).bind f)
  | .hang, _ => .hang

instance : Monad (Program Answer) where
  pure := .done
  bind := bind

def call (c : Call) : Program Answer (Answer c) := .ask c .done

@[simp] theorem pure_eq_done (a : α) : (pure a : Program Answer α) = .done a := rfl
@[simp] theorem done_bind (a : α) (f : α → Program Answer β) :
    (.done a : Program Answer α) >>= f = f a := rfl
@[simp] theorem ask_bind (c : Call) (k : Answer c → Program Answer α)
    (f : α → Program Answer β) : .ask c k >>= f = .ask c (fun r => k r >>= f) := rfl
@[simp] theorem hang_bind (f : α → Program Answer β) :
    (.hang : Program Answer α) >>= f = .hang := rfl
@[simp] theorem call_bind (c : Call) (f : Answer c → Program Answer β) :
    call c >>= f = .ask c f := rfl

theorem bind_done (p : Program Answer α) : p >>= .done = p := by
  induction p with
  | done => rfl
  | ask c k ih => exact congrArg (Program.ask c) (funext ih)
  | hang => rfl

theorem bind_bind (p : Program Answer α) (f : α → Program Answer β)
    (g : β → Program Answer γ) : p >>= f >>= g = p >>= fun a => f a >>= g := by
  induction p with
  | done => rfl
  | ask c k ih => exact congrArg (Program.ask c) (funext ih)
  | hang => rfl

instance : LawfulMonad (Program Answer) :=
  LawfulMonad.mk' _ bind_done (fun _ _ => rfl) bind_bind

/-- The history so far goes in; the history afterwards and the result, if any, come out. -/
def run (env : Environment Answer) : Program Answer α → Trace Answer → Trace Answer × Option α
  | .done a, h => (h, some a)
  | .ask c k, h =>
    match env h c with
    | none => (h ++ [⟨c, none⟩], none)
    | some r => (k r).run env (h ++ [⟨c, some r⟩])
  | .hang, h => (h, none)

variable (env : Environment Answer) (h : Trace Answer)

@[simp] theorem run_done (a : α) : (.done a : Program Answer α).run env h = (h, some a) := rfl
@[simp] theorem run_hang : (.hang : Program Answer α).run env h = (h, none) := rfl

theorem run_ask_some {c : Call} {r : Answer c} (k : Answer c → Program Answer α)
    (hr : env h c = some r) :
    (Program.ask c k).run env h = (k r).run env (h ++ [⟨c, some r⟩]) := by
  simp [run, hr]

theorem run_ask_none {c : Call} (k : Answer c → Program Answer α) (hr : env h c = none) :
    (Program.ask c k).run env h = (h ++ [⟨c, none⟩], none) := by
  simp [run, hr]

/-- A run of `p >>= f` is a run of `p`, followed by one of `f` when `p` returns. -/
theorem run_bind (p : Program Answer α) (f : α → Program Answer β) :
    (p >>= f).run env h =
      match (p.run env h).2 with
      | some a => (f a).run env (p.run env h).1
      | none => ((p.run env h).1, none) := by
  induction p generalizing h with
  | done => rfl
  | ask c k ih =>
    rw [ask_bind]
    cases hr : env h c with
    | none => simp [run_ask_none env h _ hr]
    | some r => simp only [run_ask_some env h _ hr, ih]
  | hang => rfl

theorem run_bind_some {p : Program Answer α} {f : α → Program Answer β} {h' : Trace Answer}
    {a : α} (hp : p.run env h = (h', some a)) : (p >>= f).run env h = (f a).run env h' := by
  simp [run_bind, hp]

theorem run_bind_none {p : Program Answer α} {f : α → Program Answer β} {h' : Trace Answer}
    (hp : p.run env h = (h', none)) : (p >>= f).run env h = (h', none) := by
  simp [run_bind, hp]

/-- Inversion: a run of `p >>= f` that returns is two runs that return. -/
theorem run_bind_returns {p : Program Answer α} {f : α → Program Answer β} {h' : Trace Answer}
    {b : β} (hb : (p >>= f).run env h = (h', some b)) :
    ∃ h₁ a, p.run env h = (h₁, some a) ∧ (f a).run env h₁ = (h', some b) := by
  cases hp : (p.run env h).2 with
  | none => rw [run_bind_none env h (Prod.ext rfl hp)] at hb; cases hb
  | some a =>
    have hrun : p.run env h = ((p.run env h).1, some a) := Prod.ext rfl hp
    rw [run_bind_some env h hrun] at hb
    exact ⟨_, a, hrun, hb⟩

theorem run_ask_returns {c : Call} {k : Answer c → Program Answer α} {h' : Trace Answer} {a : α}
    (ha : (Program.ask c k).run env h = (h', some a)) :
    ∃ r, env h c = some r ∧ (k r).run env (h ++ [⟨c, some r⟩]) = (h', some a) := by
  cases hr : env h c with
  | none => rw [run_ask_none env h k hr] at ha; cases ha
  | some r => exact ⟨r, rfl, by rwa [run_ask_some env h k hr] at ha⟩

/-- A run only ever adds events at the end of the history. -/
theorem run_prefix (p : Program Answer α) : h <+: (p.run env h).1 := by
  induction p generalizing h with
  | done => exact List.prefix_rfl
  | ask c k ih =>
    cases hr : env h c with
    | none => simp [run_ask_none env h _ hr]
    | some r =>
      rw [run_ask_some env h _ hr]
      exact (List.prefix_append _ _).trans (ih r _)
  | hang => exact List.prefix_rfl

/-- A program that asks first has that call as its first event. -/
theorem run_ask_first (c : Call) (k : Answer c → Program Answer α) :
    ∃ a post, ((Program.ask c k).run env h).1 = h ++ ⟨c, a⟩ :: post := by
  cases hr : env h c with
  | none =>
    rw [run_ask_none env h k hr]
    exact ⟨none, [], rfl⟩
  | some r =>
    rw [run_ask_some env h k hr]
    obtain ⟨post, hpost⟩ := run_prefix env (h ++ [⟨c, some r⟩]) (k r)
    exact ⟨some r, post, by rw [← hpost, List.append_assoc]; rfl⟩

theorem run_prefix_bind (p : Program Answer α) (f : α → Program Answer β) :
    (p.run env h).1 <+: ((p >>= f).run env h).1 := by
  rw [run_bind]
  cases (p.run env h).2 with
  | none => exact List.prefix_rfl
  | some a => exact run_prefix env _ (f a)

variable {ε : Type}

@[simp] theorem run_lift (p : Program Answer α) :
    (liftM p : ExceptT ε (Program Answer) α).run = p >>= fun a => .done (.ok a) := rfl

/-- A step that cannot fail, inside a program that may. -/
@[simp] theorem run_lift_bind (p : Program Answer α) (f : α → ExceptT ε (Program Answer) β) :
    ((liftM p : ExceptT ε (Program Answer) α) >>= f).run = p >>= fun a => (f a).run :=
  ExceptT.run_bind_lift p f

end Program

end InteractionProgram
