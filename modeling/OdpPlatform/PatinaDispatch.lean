import Mathlib.Data.List.Perm.Basic

/-! # patina_tianocore: dispatch of a platform's components

Components, storages and errors are patina's, and so is what a component does when it is run. The
flag of a loop is whether its list of dispatched components is empty. -/
namespace PatinaDispatch

variable {κ σ ε : Type}

structure Patina (κ σ ε : Type) where
  initializeComponent : κ → σ → Bool × σ
  run : κ → σ → Except ε Bool × σ
  lockConfigs : σ → σ

structure Platform (κ σ : Type) where
  configs : σ → σ
  services : σ → σ
  components : List κ

/-! ## context.rs -/

structure Dispatch (κ σ : Type) where
  retained : List κ
  dispatched : List κ
  failed : List κ
  storage : σ

def Dispatch.andThen (a b : Dispatch κ σ) : Dispatch κ σ :=
  ⟨b.retained, a.dispatched ++ b.dispatched, a.failed ++ b.failed, b.storage⟩

section Code

variable (P : Patina κ σ ε)

def initializeAll : List κ → σ → List κ × σ
  | [], s => ([], s)
  | c :: rest, s =>
    let (initialized, s) := P.initializeComponent c s
    let (ready, s) := initializeAll rest s
    (if initialized = true then c :: ready else ready, s)

def retainPass : List κ → σ → Dispatch κ σ
  | [], s => ⟨[], [], [], s⟩
  | c :: rest, s =>
    let (result, s) := P.run c s
    let pass := retainPass rest s
    match result with
    | .ok true => { pass with dispatched := c :: pass.dispatched }
    | .ok false => { pass with retained := c :: pass.retained }
    | .error _ => { pass with failed := c :: pass.failed }

/-- A pass loses no component. -/
theorem retainPass_perm (ready : List κ) (s : σ) :
    List.Perm ((retainPass P ready s).dispatched ++
      ((retainPass P ready s).failed ++ (retainPass P ready s).retained)) ready := by
  induction ready generalizing s with
  | nil => exact .refl []
  | cons c rest ih =>
    rw [retainPass]
    obtain ⟨result, s'⟩ := P.run c s
    match result with
    | .ok true => exact (ih s').cons c
    | .ok false =>
      simp only [← List.append_assoc]
      exact List.perm_middle.trans (((List.append_assoc _ _ _).symm ▸ ih s').cons c)
    | .error _ => exact List.perm_middle.trans ((ih s').cons c)

theorem length_retained_lt {ready : List κ} {s : σ} (h : (retainPass P ready s).dispatched ≠ []) :
    (retainPass P ready s).retained.length < ready.length := by
  have hlength := (retainPass_perm P ready s).length_eq
  have hpos := List.length_pos_of_ne_nil h
  rw [List.length_append, List.length_append] at hlength
  omega

/-- Passes until one dispatches nothing. -/
def dispatchLoop (ready : List κ) (s : σ) : Dispatch κ σ :=
  if _h : (retainPass P ready s).dispatched = [] then retainPass P ready s
  else
    (retainPass P ready s).andThen
      (dispatchLoop (retainPass P ready s).retained (retainPass P ready s).storage)
termination_by ready.length
decreasing_by exact length_retained_lt P _h

def passes (ready : List κ) (s : σ) : List (List κ × σ) :=
  if _h : (retainPass P ready s).dispatched = [] then [(ready, s)]
  else (ready, s) :: passes (retainPass P ready s).retained (retainPass P ready s).storage
termination_by ready.length
decreasing_by exact length_retained_lt P _h

/-- Both loops; the components retained by the second are logged as never dispatched. -/
structure PlatformDispatch (κ σ : Type) where
  initialized : List κ
  start : σ
  first : Dispatch κ σ
  second : Dispatch κ σ

def PlatformDispatch.neverDispatched (d : PlatformDispatch κ σ) : List κ := d.second.retained

def dispatchPlatform (platform : Platform κ σ) (s : σ) : PlatformDispatch κ σ :=
  let (ready, s) := initializeAll P platform.components (platform.services (platform.configs s))
  let first := dispatchLoop P ready s
  let second := dispatchLoop P first.retained (P.lockConfigs first.storage)
  ⟨ready, s, first, second⟩

theorem dispatchLoop_last {ready : List κ} {s : σ} (h : (retainPass P ready s).dispatched = []) :
    dispatchLoop P ready s = retainPass P ready s := by
  rw [dispatchLoop, dif_pos h]

theorem dispatchLoop_more {ready : List κ} {s : σ} (h : (retainPass P ready s).dispatched ≠ []) :
    dispatchLoop P ready s =
      (retainPass P ready s).andThen
        (dispatchLoop P (retainPass P ready s).retained (retainPass P ready s).storage) := by
  rw [dispatchLoop, dif_neg h]

theorem passes_last {ready : List κ} {s : σ} (h : (retainPass P ready s).dispatched = []) :
    passes P ready s = [(ready, s)] := by
  rw [passes, dif_pos h]

theorem passes_more {ready : List κ} {s : σ} (h : (retainPass P ready s).dispatched ≠ []) :
    passes P ready s =
      (ready, s) :: passes P (retainPass P ready s).retained (retainPass P ready s).storage := by
  rw [passes, dif_neg h]

/-- What holds of a last pass, and in front of a pass where it holds behind it, holds of the
loop. -/
theorem dispatchLoop_induction {motive : List κ → σ → Dispatch κ σ → Prop}
    (last : ∀ ready s, (retainPass P ready s).dispatched = [] →
      motive ready s (retainPass P ready s))
    (more : ∀ ready s rest, (retainPass P ready s).dispatched ≠ [] →
      motive (retainPass P ready s).retained (retainPass P ready s).storage rest →
      motive ready s ((retainPass P ready s).andThen rest))
    (ready : List κ) (s : σ) : motive ready s (dispatchLoop P ready s) := by
  induction ready, s using dispatchLoop.induct P with
  | case1 ready s h =>
    rw [dispatchLoop_last P h]
    exact last ready s h
  | case2 ready s h ih =>
    rw [dispatchLoop_more P h]
    exact more ready s _ h ih

theorem andThen_perm {a b : Dispatch κ σ} {ready : List κ}
    (ha : List.Perm (a.dispatched ++ (a.failed ++ a.retained)) ready)
    (hb : List.Perm (b.dispatched ++ (b.failed ++ b.retained)) a.retained) :
    List.Perm ((a.andThen b).dispatched ++ ((a.andThen b).failed ++ (a.andThen b).retained))
      ready := by
  refine .trans ?_ ((((hb.append_left a.failed).append_left a.dispatched)).trans ha)
  simp only [Dispatch.andThen, List.append_assoc]
  apply List.Perm.append_left
  simp only [← List.append_assoc]
  exact (List.perm_append_comm.append_right b.failed).append_right b.retained

/-- The loop loses no component either. -/
theorem dispatchLoop_perm (ready : List κ) (s : σ) :
    List.Perm ((dispatchLoop P ready s).dispatched ++
      ((dispatchLoop P ready s).failed ++ (dispatchLoop P ready s).retained)) ready := by
  apply dispatchLoop_induction P
    (motive := fun ready _ d => List.Perm (d.dispatched ++ (d.failed ++ d.retained)) ready)
  · exact fun ready s _ => retainPass_perm P ready s
  · exact fun ready s rest _ ih => andThen_perm (retainPass_perm P ready s) ih

/-- Every pass but the last takes at least one component. -/
theorem length_passes_le (ready : List κ) (s : σ) :
    (passes P ready s).length ≤ ready.length + 1 := by
  induction ready, s using passes.induct P with
  | case1 ready s h =>
    rw [passes_last P h]
    exact Nat.le_add_left 1 _
  | case2 ready s h ih =>
    have hlt := length_retained_lt P h
    rw [passes_more P h, List.length_cons]
    omega

end Code

/-- What a component waits for and what it registers. -/
structure Component where
  requires : List ℕ
  /-- The state of the configs that a parameter asks for. -/
  configs : Option Bool
  provides : List ℕ
  deriving DecidableEq, Repr

structure Storage where
  services : List ℕ
  locked : Bool
  deriving DecidableEq, Repr

def Component.isReady (c : Component) (s : Storage) : Bool :=
  c.requires.all (fun n => s.services.contains n) &&
    c.configs.all (fun locked => locked == s.locked)

/-- Services are registered also by the components that return an error. -/
def numbered (fails : Component → Bool) : Patina Component Storage String where
  initializeComponent _ s := (true, s)
  run c s :=
    if c.isReady s = true then
      (if fails c = true then .error "failed" else .ok true,
        { s with services := s.services ++ c.provides })
    else (.ok false, s)
  lockConfigs s := { s with locked := true }

end PatinaDispatch
