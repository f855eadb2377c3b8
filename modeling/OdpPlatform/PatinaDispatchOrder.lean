import OdpPlatform.GrowingSets
import OdpPlatform.PatinaDispatch

/-! # patina_tianocore: what is dispatched does not depend on the order

Components that do not fail: each registers its own services, and waits for services and for the
configs to be locked or not. Both loops then reach least closed sets. -/
namespace PatinaDispatchOrder

open GrowingSets PatinaDispatch

variable {κ σ ε ν : Type}

/-- What readiness looks at in a storage, and what a component adds to it. -/
structure Dependencies (κ σ ν : Type) where
  services : σ → Set ν
  locked : σ → Bool
  provides : κ → Set ν
  ready : Bool → Set ν → κ → Prop

namespace Dependencies

variable (D : Dependencies κ σ ν)

def Ready (s : σ) (c : κ) : Prop := D.ready (D.locked s) (D.services s) c

def provided (X : Set κ) : Set ν := {n | ∃ c ∈ X, n ∈ D.provides c}

def enabled (locked : Bool) (base : Set ν) (X : Set κ) : Set κ :=
  {c | D.ready locked (base ∪ D.provided X) c}

theorem provided_empty : D.provided ∅ = ∅ := by
  simp [provided]

theorem provided_insert (c : κ) (X : Set κ) :
    D.provided (insert c X) = D.provided X ∪ D.provides c := by
  ext n
  simp only [provided, Set.mem_ofPred_eq, Set.mem_insert_iff, exists_eq_or_imp, Set.mem_union]
  exact or_comm

theorem provided_mono {X Y : Set κ} (h : X ⊆ Y) : D.provided X ⊆ D.provided Y :=
  fun _ ⟨c, hc, hn⟩ => ⟨c, h hc, hn⟩

end Dependencies

structure Registers (P : Patina κ σ ε) (D : Dependencies κ σ ν) : Prop where
  ready_mono : ∀ {locked S T c}, S ⊆ T → D.ready locked S c → D.ready locked T c
  run_waiting : ∀ {c s}, ¬D.Ready s c → P.run c s = (.ok false, s)
  run_ready : ∀ {c s}, D.Ready s c → ∃ s', P.run c s = (.ok true, s') ∧
    D.services s' = D.services s ∪ D.provides c ∧ D.locked s' = D.locked s
  lock_services : ∀ s, D.services (P.lockConfigs s) = D.services s
  lock_locked : ∀ s, D.locked (P.lockConfigs s) = true
  init_enabled : ∀ c s, D.enabled (D.locked (P.initializeComponent c s).2)
    (D.services (P.initializeComponent c s).2) = D.enabled (D.locked s) (D.services s)
  init_enabled_locked : ∀ c s, D.enabled true (D.services (P.initializeComponent c s).2) =
    D.enabled true (D.services s)
  init_verdict : ∀ c d s,
    (P.initializeComponent c (P.initializeComponent d s).2).1 = (P.initializeComponent c s).1

section Loops

variable {P : Patina κ σ ε} {D : Dependencies κ σ ν}

theorem enabled_mono (h : Registers P D) (locked : Bool) (base : Set ν) :
    Monotone (D.enabled locked base) := fun _ _ hXY _ hc =>
  h.ready_mono (Set.union_subset_union_right base (D.provided_mono hXY)) hc

structure Reached (D : Dependencies κ σ ν) (locked : Bool) (base : Set ν) (X : Set κ) (s : σ) :
    Prop where
  services : D.services s = base ∪ D.provided X
  locked : D.locked s = locked

variable {locked : Bool} {base : Set ν} {X : Set κ} {s : σ}

theorem Reached.ready_iff (hs : Reached D locked base X s) (c : κ) :
    D.Ready s c ↔ c ∈ D.enabled locked base X := by
  rw [Dependencies.Ready, hs.services, hs.locked]
  exact Iff.rfl

theorem Reached.run (h : Registers P D) (hs : Reached D locked base X s) {c : κ}
    (hc : c ∈ D.enabled locked base X) :
    ∃ s', P.run c s = (.ok true, s') ∧ Reached D locked base (insert c X) s' := by
  obtain ⟨s', hrun, hservices, hlocked⟩ := h.run_ready ((hs.ready_iff c).mpr hc)
  refine ⟨s', hrun, ?_, hlocked.trans hs.locked⟩
  rw [hservices, hs.services, D.provided_insert, Set.union_assoc]

def entries (l : List κ) : Set κ := {c | c ∈ l}

theorem entries_nil : entries ([] : List κ) = ∅ := by
  ext c
  simp [entries]

theorem union_entries_cons (X : Set κ) (c : κ) (l : List κ) :
    X ∪ entries (c :: l) = insert c X ∪ entries l := by
  ext d
  simp only [entries, Set.mem_union, Set.mem_ofPred_eq, List.mem_cons, Set.mem_insert_iff]
  tauto

theorem union_entries_append (X : Set κ) (k l : List κ) :
    X ∪ entries (k ++ l) = X ∪ entries k ∪ entries l := by
  ext d
  simp only [entries, Set.mem_union, Set.mem_ofPred_eq, List.mem_append]
  tauto

structure Advances (D : Dependencies κ σ ν) (candidates : Set κ) (locked : Bool) (base : Set ν)
    (X : Set κ) (d : Dispatch κ σ) : Prop where
  failed : d.failed = []
  reached : Reached D locked base (X ∪ entries d.dispatched) d.storage
  grows : Grows candidates (D.enabled locked base) X (X ∪ entries d.dispatched)

theorem advances_retainPass (h : Registers P D) {candidates : Set κ} {ready : List κ}
    (hready : ∀ c ∈ ready, c ∈ candidates) (hs : Reached D locked base X s) :
    Advances D candidates locked base X (retainPass P ready s) := by
  induction ready generalizing s X with
  | nil =>
    have hsame : X ∪ entries ([] : List κ) = X := by rw [entries_nil, Set.union_empty]
    refine ⟨rfl, ?_, ?_⟩
    · rw [retainPass, hsame]
      exact hs
    · rw [retainPass, hsame]
      exact .refl
  | cons c rest ih =>
    obtain ⟨hc, hrest⟩ := List.forall_mem_cons.mp hready
    by_cases henabled : c ∈ D.enabled locked base X
    · obtain ⟨s', hrun, hs'⟩ := hs.run h henabled
      obtain ⟨hfailed, hreached, hgrows⟩ := ih hrest hs'
      have hstep : Grows candidates (D.enabled locked base) X (insert c X) :=
        Grows.refl.add hc henabled
      rw [retainPass, hrun]
      refine ⟨hfailed, ?_, ?_⟩
      · rw [union_entries_cons]
        exact hreached
      · rw [union_entries_cons]
        exact hstep.trans hgrows
    · have hwaits : ¬D.Ready s c := fun hr => henabled ((hs.ready_iff c).mp hr)
      obtain ⟨hfailed, hreached, hgrows⟩ := ih hrest hs
      rw [retainPass, h.run_waiting hwaits]
      exact ⟨hfailed, hreached, hgrows⟩

/-- A pass that dispatches nothing has found nothing ready, and changed nothing. -/
theorem retainPass_idle (h : Registers P D) {ready : List κ} {s : σ}
    (hnone : (retainPass P ready s).dispatched = []) :
    retainPass P ready s = ⟨ready, [], [], s⟩ ∧ ∀ c ∈ ready, ¬D.Ready s c := by
  induction ready with
  | nil => exact ⟨rfl, nofun⟩
  | cons c rest ih =>
    rw [retainPass] at hnone ⊢
    by_cases hr : D.Ready s c
    · obtain ⟨s', hrun, -⟩ := h.run_ready hr
      rw [hrun] at hnone
      cases hnone
    · rw [h.run_waiting hr] at hnone ⊢
      obtain ⟨hrest, hwait⟩ := ih hnone
      refine ⟨?_, List.forall_mem_cons.mpr ⟨hr, hwait⟩⟩
      dsimp only
      rw [hrest]

theorem Advances.andThen {candidates : Set κ} {a b : Dispatch κ σ}
    (ha : Advances D candidates locked base X a)
    (hb : Advances D candidates locked base (X ∪ entries a.dispatched) b) :
    Advances D candidates locked base X (a.andThen b) := by
  refine ⟨?_, ?_, ?_⟩
  · rw [Dispatch.andThen, ha.failed, hb.failed, List.nil_append]
  · rw [Dispatch.andThen, union_entries_append]
    exact hb.reached
  · rw [Dispatch.andThen, union_entries_append]
    exact ha.grows.trans hb.grows

theorem retained_subset {ready : List κ} {s : σ} :
    ∀ c ∈ (retainPass P ready s).retained, c ∈ ready := by
  intro c hc
  apply (retainPass_perm P ready s).mem_iff.mp
  exact List.mem_append_right _ (List.mem_append_right _ hc)

/-- A loop advances until nothing that it retains is ready. -/
theorem advances_dispatchLoop (h : Registers P D) {candidates : Set κ} (ready : List κ) (s : σ) :
    (∀ c ∈ ready, c ∈ candidates) → ∀ {X}, Reached D locked base X s →
      Advances D candidates locked base X (dispatchLoop P ready s) ∧
        ∀ c ∈ (dispatchLoop P ready s).retained, ¬D.Ready (dispatchLoop P ready s).storage c := by
  apply dispatchLoop_induction P (motive := fun ready s d => (∀ c ∈ ready, c ∈ candidates) →
    ∀ {X}, Reached D locked base X s → Advances D candidates locked base X d ∧
      ∀ c ∈ d.retained, ¬D.Ready d.storage c)
  · intro ready s hnone hready X hs
    refine ⟨advances_retainPass h hready hs, ?_⟩
    obtain ⟨hidle, hwait⟩ := retainPass_idle h hnone
    rw [hidle]
    exact hwait
  · intro ready s rest _ ih hready X hs
    have hpass := advances_retainPass h hready hs
    obtain ⟨hrest, hwait⟩ := ih (fun c hc => hready c (retained_subset c hc)) hpass.reached
    exact ⟨hpass.andThen hrest, hwait⟩

/-- Behind a loop every component of its list is dispatched or retained. -/
theorem dispatched_or_retained {d : Dispatch κ σ} {ready : List κ} (hfailed : d.failed = [])
    (hperm : List.Perm (d.dispatched ++ (d.failed ++ d.retained)) ready) {c : κ} :
    c ∈ ready ↔ c ∈ d.dispatched ∨ c ∈ d.retained := by
  rw [← hperm.mem_iff, hfailed, List.nil_append, List.mem_append]

/-- From a reached set, the loop gets to the least closed set above it. -/
theorem isLeast_dispatchLoop (h : Registers P D) {candidates : Set κ} {ready : List κ}
    (hready : ∀ c ∈ ready, c ∈ candidates) (hrest : ∀ c ∈ candidates, c ∈ X ∨ c ∈ ready)
    (hs : Reached D locked base X s) :
    IsLeast {Z | X ⊆ Z ∧ Closed candidates (D.enabled locked base) Z}
      (X ∪ entries (dispatchLoop P ready s).dispatched) := by
  obtain ⟨⟨hfailed, hreached, hgrows⟩, hwait⟩ := advances_dispatchLoop h ready s hready hs
  apply hgrows.isLeast (enabled_mono h locked base)
  intro c hc henabled
  obtain hX | hc := hrest c hc
  · exact .inl hX
  · obtain hdispatched | hretained :=
      (dispatched_or_retained hfailed (dispatchLoop_perm P ready s)).mp hc
    · exact .inr hdispatched
    · exact absurd ((hreached.ready_iff c).mpr henabled) (hwait c hretained)

/-- What a loop retains was never enabled in it. -/
theorem not_mem_of_retained (h : Registers P D) {candidates : Set κ} {ready : List κ}
    (hready : ∀ c ∈ ready, c ∈ candidates) (hs : Reached D locked base ∅ s) {c : κ}
    (hc : c ∈ (dispatchLoop P ready s).retained) :
    c ∉ entries (dispatchLoop P ready s).dispatched := by
  obtain ⟨⟨-, hreached, hgrows⟩, hwait⟩ := advances_dispatchLoop h ready s hready hs
  intro hdispatched
  obtain hnone | henabled := hgrows.mem_enabled (enabled_mono h locked base) (.inr hdispatched)
  · exact hnone
  · exact hwait c hc ((hreached.ready_iff c).mpr henabled)

end Loops

section Initialisation

variable {P : Patina κ σ ε} {D : Dependencies κ σ ν}

/-- Which components initialise is decided by the storage at the start. -/
theorem initializeAll_eq (h : Registers P D) (components : List κ) (s : σ) :
    (initializeAll P components s).1 =
      components.filter fun c => (P.initializeComponent c s).1 := by
  induction components generalizing s with
  | nil => rfl
  | cons c rest ih =>
    have hrest : (initializeAll P rest (P.initializeComponent c s).2).1 =
        rest.filter fun d => (P.initializeComponent d s).1 := by
      rw [ih]
      exact List.filter_congr fun d _ => h.init_verdict d c s
    rw [initializeAll, List.filter_cons, ← hrest]

theorem initializeAll_enabled (h : Registers P D) (components : List κ) (s : σ) :
    let s' := (initializeAll P components s).2
    D.enabled (D.locked s') (D.services s') = D.enabled (D.locked s) (D.services s) ∧
      D.enabled true (D.services s') = D.enabled true (D.services s) := by
  induction components generalizing s with
  | nil => exact ⟨rfl, rfl⟩
  | cons c rest ih =>
    obtain ⟨henabled, hlocked⟩ := ih (P.initializeComponent c s).2
    exact ⟨henabled.trans (h.init_enabled c s), hlocked.trans (h.init_enabled_locked c s)⟩

end Initialisation

section Platforms

variable (P : Patina κ σ ε) (D : Dependencies κ σ ν)

/-- The storage with the platform's configs and services. -/
def registered (platform : Platform κ σ) (s : σ) : σ := platform.services (platform.configs s)

def candidatesOf (platform : Platform κ σ) (s : σ) : Set κ :=
  {c | c ∈ platform.components ∧ (P.initializeComponent c (registered platform s)).1 = true}

/-- The least set closed under readiness before the configs are locked, and above it the least set
closed under readiness behind that. -/
structure DispatchesLeast (platform : Platform κ σ) (s : σ) : Prop where
  initialized : entries (dispatchPlatform P platform s).initialized = candidatesOf P platform s
  first : IsLeast {X | Closed (candidatesOf P platform s)
      (D.enabled (D.locked (registered platform s)) (D.services (registered platform s))) X}
    (entries (dispatchPlatform P platform s).first.dispatched)
  second : IsLeast {X | entries (dispatchPlatform P platform s).first.dispatched ⊆ X ∧
      Closed (candidatesOf P platform s) (D.enabled true (D.services (registered platform s))) X}
    (entries (dispatchPlatform P platform s).first.dispatched ∪
      entries (dispatchPlatform P platform s).second.dispatched)
  apart : Disjoint (entries (dispatchPlatform P platform s).first.dispatched)
    (entries (dispatchPlatform P platform s).second.dispatched)
  once : List.Perm ((dispatchPlatform P platform s).first.dispatched ++
      ((dispatchPlatform P platform s).second.dispatched ++
        (dispatchPlatform P platform s).neverDispatched))
    (dispatchPlatform P platform s).initialized
  passes_first : (passes P (dispatchPlatform P platform s).initialized
    (dispatchPlatform P platform s).start).length ≤ platform.components.length + 1
  passes_second : (passes P (dispatchPlatform P platform s).first.retained
    (P.lockConfigs (dispatchPlatform P platform s).first.storage)).length ≤
      platform.components.length + 1

variable {P D}

theorem entries_initialized (h : Registers P D) (platform : Platform κ σ) (s : σ) :
    entries (dispatchPlatform P platform s).initialized = candidatesOf P platform s := by
  have hfilter : (dispatchPlatform P platform s).initialized =
      platform.components.filter fun c => (P.initializeComponent c (registered platform s)).1 :=
    initializeAll_eq h platform.components (registered platform s)
  ext c
  rw [hfilter]
  simp only [entries, candidatesOf, Set.mem_ofPred_eq, List.mem_filter]

theorem dispatchesLeast (h : Registers P D) (platform : Platform κ σ) (s : σ) :
    DispatchesLeast P D platform s := by
  let d := dispatchPlatform P platform s
  have hcandidates : entries d.initialized = candidatesOf P platform s :=
    entries_initialized h platform s
  have hready : ∀ c ∈ d.initialized, c ∈ candidatesOf P platform s :=
    fun c hc => hcandidates.le hc
  have henabled : D.enabled (D.locked d.start) (D.services d.start) =
      D.enabled (D.locked (registered platform s)) (D.services (registered platform s)) :=
    (initializeAll_enabled h platform.components (registered platform s)).1
  have hlocked : D.enabled true (D.services d.start) =
      D.enabled true (D.services (registered platform s)) :=
    (initializeAll_enabled h platform.components (registered platform s)).2
  have hstart : Reached D (D.locked d.start) (D.services d.start) ∅ d.start :=
    ⟨by rw [D.provided_empty, Set.union_empty], rfl⟩
  have hfewer : d.initialized.length ≤ platform.components.length := by
    rw [show d.initialized = _ from initializeAll_eq h platform.components _]
    exact List.length_filter_le _ _
  -- the first loop
  have hfirst := isLeast_dispatchLoop h hready (fun c hc => .inr (hcandidates.ge hc)) hstart
  obtain ⟨⟨hfailed, hreached, -⟩, -⟩ := advances_dispatchLoop h d.initialized d.start hready hstart
  have hperm := dispatchLoop_perm P d.initialized d.start
  have hsplit : ∀ {c}, c ∈ d.initialized ↔ c ∈ d.first.dispatched ∨ c ∈ d.first.retained :=
    dispatched_or_retained hfailed hperm
  -- the second loop
  have hlock : Reached D true (D.services d.start) (entries d.first.dispatched)
      (P.lockConfigs d.first.storage) := by
    refine ⟨?_, h.lock_locked _⟩
    rw [h.lock_services, ← Set.empty_union (entries d.first.dispatched)]
    exact hreached.services
  have hsecondReady : ∀ c ∈ d.first.retained, c ∈ candidatesOf P platform s :=
    fun c hc => hready c (hsplit.mpr (.inr hc))
  have hsecond : IsLeast {X | entries d.first.dispatched ⊆ X ∧
        Closed (candidatesOf P platform s) (D.enabled true (D.services d.start)) X}
      (entries d.first.dispatched ∪ entries d.second.dispatched) :=
    isLeast_dispatchLoop h hsecondReady (fun c hc => hsplit.mp (hcandidates.ge hc)) hlock
  obtain ⟨⟨hfailed', -, -⟩, -⟩ := advances_dispatchLoop h _ _ hsecondReady hlock
  have hperm' := dispatchLoop_perm P d.first.retained (P.lockConfigs d.first.storage)
  have hsplit' : ∀ {c}, c ∈ d.first.retained ↔ c ∈ d.second.dispatched ∨ c ∈ d.second.retained :=
    dispatched_or_retained hfailed' hperm'
  constructor
  case initialized => exact hcandidates
  case first =>
    rw [henabled, Set.empty_union] at hfirst
    simp only [Set.empty_subset, true_and] at hfirst
    exact hfirst
  case second =>
    rw [hlocked] at hsecond
    exact hsecond
  case apart =>
    rw [Set.disjoint_left]
    intro c hc hc'
    exact not_mem_of_retained h hready hstart (hsplit'.mpr (.inl hc')) hc
  case once =>
    rw [hfailed, List.nil_append] at hperm
    rw [hfailed', List.nil_append] at hperm'
    exact (hperm'.append_left d.first.dispatched).trans hperm
  case passes_first => exact (length_passes_le P _ _).trans (Nat.add_le_add_right hfewer 1)
  case passes_second =>
    have hle : d.first.retained.length ≤ platform.components.length := by
      have hlength : d.first.dispatched.length + (d.first.failed.length +
          d.first.retained.length) = d.initialized.length := by
        rw [← hperm.length_eq, List.length_append, List.length_append]
        rfl
      omega
    exact (length_passes_le P _ _).trans (Nat.add_le_add_right hle 1)

theorem DispatchesLeast.second_eq {platform : Platform κ σ} {s : σ}
    (h : DispatchesLeast P D platform s) :
    entries (dispatchPlatform P platform s).second.dispatched =
      (entries (dispatchPlatform P platform s).first.dispatched ∪
        entries (dispatchPlatform P platform s).second.dispatched) \
          entries (dispatchPlatform P platform s).first.dispatched :=
  (Set.union_sdiff_cancel_left h.apart.le_bot).symm

/-- The order in which the components are registered. -/
theorem candidatesOf_perm {platform : Platform κ σ} {components : List κ}
    (hperm : List.Perm components platform.components) (s : σ) :
    candidatesOf P { platform with components := components } s = candidatesOf P platform s := by
  ext c
  simp only [candidatesOf, Set.mem_ofPred_eq, hperm.mem_iff]
  rfl

/-- Dispatch reaches least closed sets, whatever the order of registration. -/
theorem dispatch_least_in_any_order (h : Registers P D) (platform : Platform κ σ) (s : σ) :
    DispatchesLeast P D platform s ∧
      ∀ components, List.Perm components platform.components →
        let d := dispatchPlatform P platform s
        let d' := dispatchPlatform P { platform with components := components } s
        entries d'.first.dispatched = entries d.first.dispatched ∧
          entries d'.second.dispatched = entries d.second.dispatched := by
  refine ⟨dispatchesLeast h platform s, fun components hperm => ?_⟩
  have hd := dispatchesLeast h platform s
  have hd' := dispatchesLeast h { platform with components := components } s
  have hfirst' := hd'.first
  rw [candidatesOf_perm hperm] at hfirst'
  have hfirst := hfirst'.unique hd.first
  have hsecond' := hd'.second
  rw [candidatesOf_perm hperm, hfirst] at hsecond'
  refine ⟨hfirst, ?_⟩
  rw [hd'.second_eq, hd.second_eq, hfirst, hsecond'.unique hd.second]

end Platforms

def numberedDependencies : Dependencies Component Storage ℕ where
  services s := {n | n ∈ s.services}
  locked := Storage.locked
  provides c := {n | n ∈ c.provides}
  ready locked S c := (∀ n ∈ c.requires, n ∈ S) ∧ ∀ state ∈ c.configs, state = locked

theorem isReady_iff (c : Component) (s : Storage) :
    c.isReady s = true ↔ numberedDependencies.Ready s c := by
  simp [Component.isReady, Dependencies.Ready, numberedDependencies, Option.all_eq_true]

theorem numbered_registers : Registers (numbered fun _ => false) numberedDependencies where
  ready_mono hST hready := ⟨fun n hn => hST (hready.1 n hn), hready.2⟩
  run_waiting {c s} hwaits := if_neg fun hready => hwaits ((isReady_iff c s).mp hready)
  run_ready {c s} hready := by
    refine ⟨_, if_pos ((isReady_iff c s).mpr hready), ?_, rfl⟩
    ext n
    simp [numberedDependencies]
  lock_services _ := rfl
  lock_locked _ := rfl
  init_enabled _ _ := rfl
  init_enabled_locked _ _ := rfl
  init_verdict _ _ _ := rfl

/-- A consumer in front of its producer, and one that waits for locked configs. -/
def reversedPlatform : Platform Component Storage where
  configs := id
  services := id
  components := [⟨[0], none, []⟩, ⟨[1], some true, []⟩, ⟨[], some false, [0, 1]⟩]

theorem reversedPlatform_dispatched :
    DispatchesLeast (numbered fun _ => false) numberedDependencies reversedPlatform ⟨[], false⟩ ∧
      entries (dispatchPlatform (numbered fun _ => false)
          { reversedPlatform with components := reversedPlatform.components.reverse }
          ⟨[], false⟩).first.dispatched =
        entries (dispatchPlatform (numbered fun _ => false) reversedPlatform
          ⟨[], false⟩).first.dispatched :=
  ⟨(dispatch_least_in_any_order numbered_registers reversedPlatform _).1,
    ((dispatch_least_in_any_order numbered_registers reversedPlatform _).2 _
      (List.reverse_perm _)).1⟩

end PatinaDispatchOrder
