import OdpPlatform.PatinaDispatchOrder

/-! # patina_tianocore: what failing components leave behind

A component that returns an error may have registered services before. The loops count the
successful runs of a pass only, so a pass of failures is the last, whatever they have made ready. -/
namespace PatinaDispatchFailures

open PatinaDispatch PatinaDispatchOrder

variable {κ σ ε ν : Type}

structure RegistersOrFails (P : Patina κ σ ε) (D : Dependencies κ σ ν) : Prop where
  ready_mono : ∀ {locked S T c}, S ⊆ T → D.ready locked S c → D.ready locked T c
  run_waiting : ∀ {c s}, ¬D.Ready s c → P.run c s = (.ok false, s)
  run_ready : ∀ {c s}, D.Ready s c → (P.run c s).1 ≠ .ok false ∧
    D.services s ⊆ D.services (P.run c s).2 ∧ D.locked (P.run c s).2 = D.locked s

def turns (P : Patina κ σ ε) : List κ → σ → List (κ × σ)
  | [], _ => []
  | c :: rest, s => (c, s) :: turns P rest (P.run c s).2

def Waits (P : Patina κ σ ε) (x : κ × σ) : Bool :=
  match (P.run x.1 x.2).1 with
  | .ok false => true
  | _ => false

def waiting (P : Patina κ σ ε) (runs : List (κ × σ)) : List κ :=
  (runs.filter (Waits P)).map Prod.fst

/-- A failing component makes one ready that has waited before it in the same pass. -/
def EnablesEarlier (P : Patina κ σ ε) (D : Dependencies κ σ ν) (runs : List (κ × σ)) : Prop :=
  ∃ before c s after, runs = before ++ (c, s) :: after ∧ (∃ e, (P.run c s).1 = .error e) ∧
    ∃ x ∈ before, Waits P x = true ∧ D.Ready (P.run c s).2 x.1

def SomeDispatched (P : Patina κ σ ε) (runs : List (κ × σ)) : Prop :=
  ∃ c s, (c, s) ∈ runs ∧ (P.run c s).1 = .ok true

/-- Failures that make earlier components ready come with a success in the same pass. -/
def FailsSafely (P : Patina κ σ ε) (D : Dependencies κ σ ν) (pass : List κ × σ) : Prop :=
  EnablesEarlier P D (turns P pass.1 pass.2) → SomeDispatched P (turns P pass.1 pass.2)

def Quiescent (D : Dependencies κ σ ν) (d : Dispatch κ σ) : Prop :=
  ∀ c ∈ d.retained, ¬D.Ready d.storage c

section Passes

variable {P : Patina κ σ ε} {D : Dependencies κ σ ν}

theorem waits_iff {c : κ} {s : σ} : Waits P (c, s) = true ↔ (P.run c s).1 = .ok false := by
  rw [Waits]
  generalize (P.run c s).1 = result
  cases result with
  | ok b => cases b <;> simp
  | error e => simp

/-- One turn, by what the component returns. -/
theorem retainPass_cons (c : κ) (rest : List κ) (s : σ) :
    retainPass P (c :: rest) s =
      let pass := retainPass P rest (P.run c s).2
      match (P.run c s).1 with
      | .ok true => { pass with dispatched := c :: pass.dispatched }
      | .ok false => { pass with retained := c :: pass.retained }
      | .error _ => { pass with failed := c :: pass.failed } := rfl

theorem storage_cons (c : κ) (rest : List κ) (s : σ) :
    (retainPass P (c :: rest) s).storage = (retainPass P rest (P.run c s).2).storage := by
  rw [retainPass_cons]
  generalize (P.run c s).1 = result
  match result with
  | .ok true | .ok false | .error _ => rfl

/-- The flag of a pass is set by a successful run. -/
theorem dispatched_eq_nil_iff (ready : List κ) (s : σ) :
    (retainPass P ready s).dispatched = [] ↔ ¬SomeDispatched P (turns P ready s) := by
  induction ready generalizing s with
  | nil => exact iff_of_true rfl fun ⟨_, _, hmem, _⟩ => List.not_mem_nil hmem
  | cons c rest ih =>
    have hcons : SomeDispatched P (turns P (c :: rest) s) ↔
        (P.run c s).1 = .ok true ∨ SomeDispatched P (turns P rest (P.run c s).2) := by
      simp only [SomeDispatched, turns, List.mem_cons, Prod.mk.injEq]
      constructor
      · intro ⟨d, t, hmem, hrun⟩
        obtain ⟨rfl, rfl⟩ | hmem := hmem
        · exact .inl hrun
        · exact .inr ⟨d, t, hmem, hrun⟩
      · intro h
        obtain hrun | ⟨d, t, hmem, hrun⟩ := h
        · exact ⟨c, s, .inl ⟨rfl, rfl⟩, hrun⟩
        · exact ⟨d, t, .inr hmem, hrun⟩
    rw [hcons, retainPass_cons]
    generalize hresult : (P.run c s).1 = result
    match result with
    | .ok true => exact iff_of_false (List.cons_ne_nil _ _) fun h => h (.inl rfl)
    | .ok false => exact (ih _).trans (by simp)
    | .error e => exact (ih _).trans (by simp)

/-- Exactly the components that waited are retained. -/
theorem retained_eq_waiting (ready : List κ) (s : σ) :
    (retainPass P ready s).retained = waiting P (turns P ready s) := by
  induction ready generalizing s with
  | nil => rfl
  | cons c rest ih =>
    rw [retainPass_cons, turns, waiting, List.filter_cons, Waits]
    generalize (P.run c s).1 = result
    match result with
    | .ok true => exact ih _
    | .ok false => exact congrArg (c :: ·) (ih _)
    | .error _ => exact ih _

/-- What is ready stays ready on the second storage. -/
structure Extends (D : Dependencies κ σ ν) (s s' : σ) : Prop where
  services : D.services s ⊆ D.services s'
  locked : D.locked s' = D.locked s

theorem Extends.refl (s : σ) : Extends D s s := ⟨subset_rfl, rfl⟩

theorem Extends.trans {s t u : σ} (h : Extends D s t) (k : Extends D t u) : Extends D s u :=
  ⟨h.services.trans k.services, k.locked.trans h.locked⟩

theorem Extends.ready (h : RegistersOrFails P D) {s s' : σ} (hs : Extends D s s') {c : κ}
    (hc : D.Ready s c) : D.Ready s' c := by
  rw [Dependencies.Ready, hs.locked]
  exact h.ready_mono hs.services hc

theorem extends_run (h : RegistersOrFails P D) (c : κ) (s : σ) : Extends D s (P.run c s).2 := by
  by_cases hc : D.Ready s c
  · obtain ⟨-, hservices, hlocked⟩ := h.run_ready hc
    exact ⟨hservices, hlocked⟩
  · rw [h.run_waiting hc]
    exact .refl s

theorem extends_retainPass (h : RegistersOrFails P D) (ready : List κ) (s : σ) :
    Extends D s (retainPass P ready s).storage := by
  induction ready generalizing s with
  | nil => exact .refl s
  | cons c rest ih =>
    rw [storage_cons]
    exact (extends_run h c s).trans (ih _)

theorem extends_turn (h : RegistersOrFails P D) {ready : List κ} {s : σ} {x : κ × σ}
    (hx : x ∈ turns P ready s) :
    Extends D (P.run x.1 x.2).2 (retainPass P ready s).storage := by
  induction ready generalizing s with
  | nil => cases hx
  | cons c rest ih =>
    rw [storage_cons]
    obtain rfl | hx := List.mem_cons.mp hx
    · exact extends_retainPass h rest _
    · exact ih hx

theorem not_ready_of_waits (h : RegistersOrFails P D) {c : κ} {s : σ}
    (hwaits : (P.run c s).1 = .ok false) : ¬D.Ready s c :=
  fun hc => (h.run_ready hc).1 hwaits

/-- Without a success, a component that no failure makes ready stays as it is. -/
theorem not_ready_behind (h : RegistersOrFails P D) {b : κ} {ready : List κ} {s : σ}
    (hnone : ¬SomeDispatched P (turns P ready s)) (hb : ¬D.Ready s b)
    (hfailures : ∀ c t e, (c, t) ∈ turns P ready s → (P.run c t).1 = .error e →
      ¬D.Ready (P.run c t).2 b) : ¬D.Ready (retainPass P ready s).storage b := by
  induction ready generalizing s with
  | nil => exact hb
  | cons c rest ih =>
    rw [storage_cons]
    apply ih
    · exact fun ⟨d, t, hmem, hrun⟩ => hnone ⟨d, t, List.mem_cons_of_mem _ hmem, hrun⟩
    · by_cases hc : D.Ready s c
      · cases hrun : (P.run c s).1 with
        | error e => exact hfailures c s e List.mem_cons_self hrun
        | ok result =>
          cases result with
          | true => exact absurd ⟨c, s, List.mem_cons_self, hrun⟩ hnone
          | false => exact absurd hrun (h.run_ready hc).1
      · rw [h.run_waiting hc]
        exact hb
    · exact fun d t e hmem => hfailures d t e (List.mem_cons_of_mem _ hmem)

theorem quiescent_of_failures (h : RegistersOrFails P D) {ready : List κ} {s : σ}
    (hnone : ¬SomeDispatched P (turns P ready s))
    (hfailures : ¬EnablesEarlier P D (turns P ready s)) : Quiescent D (retainPass P ready s) := by
  induction ready generalizing s with
  | nil => exact fun c hc => absurd hc List.not_mem_nil
  | cons c rest ih =>
    have htail : Quiescent D (retainPass P rest (P.run c s).2) := by
      apply ih
      · exact fun ⟨d, t, hmem, hrun⟩ => hnone ⟨d, t, List.mem_cons_of_mem _ hmem, hrun⟩
      · intro ⟨before, d, t, after, hsplit, hfails, x, hx, henables⟩
        refine hfailures ⟨(c, s) :: before, d, t, after, ?_, hfails, x,
          List.mem_cons_of_mem _ hx, henables⟩
        rw [turns, hsplit]
        rfl
    intro b hb
    rw [retained_eq_waiting, turns, waiting, List.filter_cons] at hb
    rw [storage_cons]
    by_cases hwaits : Waits P (c, s) = true
    · rw [if_pos hwaits, List.map_cons] at hb
      obtain rfl | hb := List.mem_cons.mp hb
      · -- the component in front: a failure behind it would enable it
        have hunready := not_ready_of_waits h (waits_iff.mp hwaits)
        have hsame : (P.run b s).2 = s := by rw [h.run_waiting hunready]
        rw [hsame]
        rw [turns, hsame] at hnone hfailures
        apply not_ready_behind h _ hunready
        · intro d t e hmem hrun hready
          obtain ⟨before, after, hsplit⟩ := List.append_of_mem hmem
          refine hfailures ⟨(b, s) :: before, d, t, after, ?_, ⟨e, hrun⟩, (b, s),
            List.mem_cons_self, hwaits, hready⟩
          rw [hsplit]
          rfl
        · exact fun ⟨d, t, hmem, hrun⟩ => hnone ⟨d, t, List.mem_cons_of_mem _ hmem, hrun⟩
      · apply htail b
        rw [retained_eq_waiting]
        exact hb
    · rw [if_neg hwaits] at hb
      apply htail b
      rw [retained_eq_waiting]
      exact hb

/-- A component that a failure has made ready is retained, and still ready at the end. -/
theorem not_quiescent_of_failure (h : RegistersOrFails P D) {ready : List κ} {s : σ}
    (hfailure : EnablesEarlier P D (turns P ready s)) : ¬Quiescent D (retainPass P ready s) := by
  obtain ⟨before, c, t, after, hsplit, -, x, hx, hwaits, hready⟩ := hfailure
  intro hquiescent
  apply hquiescent x.1
  · rw [retained_eq_waiting, hsplit]
    apply List.mem_map_of_mem
    exact List.mem_filter.mpr ⟨List.mem_append_left _ hx, hwaits⟩
  · have hmem : (c, t) ∈ turns P ready s := by
      rw [hsplit]
      exact List.mem_append_right _ List.mem_cons_self
    exact (extends_turn h hmem).ready h hready

theorem quiescent_last_iff (h : RegistersOrFails P D) {ready : List κ} {s : σ}
    (hnone : (retainPass P ready s).dispatched = []) :
    Quiescent D (retainPass P ready s) ↔ FailsSafely P D (ready, s) := by
  have hflag := (dispatched_eq_nil_iff ready s).mp hnone
  constructor
  · exact fun hquiescent hfailure => absurd hquiescent (not_quiescent_of_failure h hfailure)
  · exact fun hsafe => quiescent_of_failures h hflag fun hfailure => hflag (hsafe hfailure)

theorem quiescent_loop_iff (h : RegistersOrFails P D) (ready : List κ) (s : σ) :
    Quiescent D (dispatchLoop P ready s) ↔ ∀ pass ∈ passes P ready s, FailsSafely P D pass := by
  induction ready, s using passes.induct P with
  | case1 ready s hnone =>
    rw [dispatchLoop_last P hnone, passes_last P hnone, List.forall_mem_singleton]
    exact quiescent_last_iff h hnone
  | case2 ready s hsome ih =>
    have hsafe : FailsSafely P D (ready, s) := fun _ =>
      not_not.mp fun hnone => hsome ((dispatched_eq_nil_iff ready s).mpr hnone)
    rw [dispatchLoop_more P hsome, passes_more P hsome, List.forall_mem_cons,
      and_iff_right hsafe]
    exact ih

/-- The second pass runs the components that waited in the first. -/
def Follows (P : Patina κ σ ε) (first second : List κ × σ) : Prop :=
  second.1 = waiting P (turns P first.1 first.2)

theorem passes_eq_cons (P : Patina κ σ ε) (ready : List κ) (s : σ) :
    ∃ rest, passes P ready s = (ready, s) :: rest := by
  by_cases hnone : (retainPass P ready s).dispatched = []
  · exact ⟨[], passes_last P hnone⟩
  · exact ⟨_, passes_more P hnone⟩

/-- Behind a loop only its retained components are run. -/
theorem isChain_passes_append {later : List (List κ × σ)} (hlater : later.IsChain (Follows P))
    (ready : List κ) (s : σ) :
    (∀ pass ∈ later.head?, pass.1 = (dispatchLoop P ready s).retained) →
      (passes P ready s ++ later).IsChain (Follows P) := by
  have hcons : ∀ {first : List κ × σ} {rest : List (List κ × σ)}, rest.IsChain (Follows P) →
      (∀ second ∈ rest.head?, Follows P first second) → (first :: rest).IsChain (Follows P) := by
    intro first rest hrest hhead
    cases hrest with
    | nil => exact .singleton first
    | singleton second => exact .cons_cons (hhead second rfl) (.singleton second)
    | cons_cons h hchain => exact .cons_cons (hhead _ rfl) (.cons_cons h hchain)
  induction ready, s using passes.induct P with
  | case1 ready s hnone =>
    intro hhead
    rw [passes_last P hnone]
    apply hcons hlater
    intro pass hpass
    rw [Follows, hhead pass hpass, dispatchLoop_last P hnone]
    exact retained_eq_waiting ready s
  | case2 ready s hsome ih =>
    intro hhead
    rw [dispatchLoop_more P hsome] at hhead
    have hrest := ih hhead
    obtain ⟨rest, hpasses⟩ :=
      passes_eq_cons P (retainPass P ready s).retained (retainPass P ready s).storage
    rw [passes_more P hsome]
    apply hcons hrest
    intro pass hpass
    rw [hpasses] at hpass
    cases hpass
    exact retained_eq_waiting ready s

end Passes

section Platforms

variable (P : Patina κ σ ε) (D : Dependencies κ σ ν)

/-- The passes of both loops. -/
def allPasses (platform : Platform κ σ) (s : σ) : List (List κ × σ) :=
  let d := dispatchPlatform P platform s
  passes P d.initialized d.start ++ passes P d.first.retained (P.lockConfigs d.first.storage)

variable {P D}

/-- Both loops end with nothing ready exactly where the failures of each pass without a success
enable no component in front of them; and a pass runs nothing that has returned before. -/
theorem quiescent_iff_fails_safely (h : RegistersOrFails P D) (platform : Platform κ σ) (s : σ) :
    ((Quiescent D (dispatchPlatform P platform s).first ∧
        Quiescent D (dispatchPlatform P platform s).second) ↔
      ∀ pass ∈ allPasses P platform s, FailsSafely P D pass) ∧
    (allPasses P platform s).IsChain (Follows P) := by
  let d := dispatchPlatform P platform s
  constructor
  · have hfirst : Quiescent D d.first ↔ _ := quiescent_loop_iff h d.initialized d.start
    have hsecond : Quiescent D d.second ↔ _ :=
      quiescent_loop_iff h d.first.retained (P.lockConfigs d.first.storage)
    rw [hfirst, hsecond, allPasses, List.forall_mem_append]
  · obtain ⟨rest, hrest⟩ := passes_eq_cons P d.first.retained (P.lockConfigs d.first.storage)
    have hchain := @isChain_passes_append _ _ _ P [] .nil d.first.retained
      (P.lockConfigs d.first.storage) nofun
    rw [List.append_nil] at hchain
    apply isChain_passes_append hchain
    intro pass hpass
    rw [hrest] at hpass
    cases hpass
    rfl

end Platforms

/-- Registers service 0 and returns an error. -/
def failingProducer : Component := ⟨[], none, [0]⟩

def unlockedConsumer : Component := ⟨[0], some false, []⟩

def failing : Patina Component Storage String := numbered fun c => decide (c = failingProducer)

theorem failing_registersOrFails : RegistersOrFails failing numberedDependencies where
  ready_mono hST hready := ⟨fun n hn => hST (hready.1 n hn), hready.2⟩
  run_waiting {c s} hwaits := if_neg fun hready => hwaits ((isReady_iff c s).mp hready)
  run_ready {c s} hready := by
    have hrun : failing.run c s = (if decide (c = failingProducer) = true then .error "failed"
        else .ok true, { s with services := s.services ++ c.provides }) :=
      if_pos ((isReady_iff c s).mpr hready)
    rw [hrun]
    refine ⟨?_, fun n hn => List.mem_append_left _ hn, rfl⟩
    by_cases hfails : decide (c = failingProducer) = true
    · rw [if_pos hfails]
      exact nofun
    · rw [if_neg hfails]
      exact nofun

def consumerFirst : Platform Component Storage := ⟨id, id, [unlockedConsumer, failingProducer]⟩

def producerFirst : Platform Component Storage := ⟨id, id, [failingProducer, unlockedConsumer]⟩

/-- The configs are locked while the consumer is ready, and it is logged as never dispatched. -/
theorem ready_when_configs_are_locked :
    ¬Quiescent numberedDependencies (dispatchPlatform failing consumerFirst ⟨[], false⟩).first ∧
      (dispatchPlatform failing consumerFirst ⟨[], false⟩).neverDispatched =
        [unlockedConsumer] := by
  have hfirst : (dispatchPlatform failing consumerFirst ⟨[], false⟩).first =
      ⟨[unlockedConsumer], [], [failingProducer], ⟨[0], false⟩⟩ := dispatchLoop_last failing rfl
  constructor
  · intro hquiescent
    rw [hfirst] at hquiescent
    have hready : unlockedConsumer.isReady ⟨[0], false⟩ = true := rfl
    exact hquiescent unlockedConsumer List.mem_cons_self ((isReady_iff _ _).mp hready)
  · have hsecond : (dispatchPlatform failing consumerFirst ⟨[], false⟩).second =
        dispatchLoop failing (dispatchPlatform failing consumerFirst ⟨[], false⟩).first.retained
          (failing.lockConfigs
            (dispatchPlatform failing consumerFirst ⟨[], false⟩).first.storage) :=
      rfl
    have hlast : (retainPass failing [unlockedConsumer] ⟨[0], true⟩).dispatched = [] := rfl
    rw [PlatformDispatch.neverDispatched, hsecond, hfirst]
    exact congrArg Dispatch.retained (dispatchLoop_last failing hlast)

/-- The other way round, the consumer is dispatched in the pass of the failure. -/
theorem producerFirst_quiescent :
    (Quiescent numberedDependencies (dispatchPlatform failing producerFirst ⟨[], false⟩).first ∧
      Quiescent numberedDependencies
        (dispatchPlatform failing producerFirst ⟨[], false⟩).second) := by
  apply (quiescent_iff_fails_safely failing_registersOrFails producerFirst ⟨[], false⟩).1.mpr
  let s₀ : Storage := ⟨[], false⟩
  let s₁ : Storage := ⟨[0], false⟩
  have hsome : (retainPass failing producerFirst.components s₀).dispatched ≠ [] :=
    List.cons_ne_nil _ _
  have hfirst : passes failing (dispatchPlatform failing producerFirst s₀).initialized
      (dispatchPlatform failing producerFirst s₀).start =
        [(producerFirst.components, s₀), ([], s₁)] :=
    (passes_more failing hsome).trans (congrArg _ (passes_last failing rfl))
  have hretained : (dispatchPlatform failing producerFirst s₀).first.retained = [] :=
    congrArg Dispatch.retained ((dispatchLoop_more failing hsome).trans
      (congrArg _ (dispatchLoop_last failing rfl)))
  have hnothing : ∀ s, FailsSafely failing numberedDependencies ([], s) := by
    intro s ⟨before, c, t, after, hsplit, _⟩
    cases before <;> cases hsplit
  have hproducer : FailsSafely failing numberedDependencies (producerFirst.components, s₀) :=
    fun _ => ⟨unlockedConsumer, s₁, List.mem_cons_of_mem _ List.mem_cons_self, rfl⟩
  intro pass hpass
  obtain hpass | hpass := List.mem_append.mp hpass
  · rw [hfirst] at hpass
    obtain rfl | hpass := List.mem_cons.mp hpass
    · exact hproducer
    · rw [List.mem_singleton.mp hpass]
      exact hnothing s₁
  · rw [hretained, passes_last failing rfl] at hpass
    rw [List.mem_singleton.mp hpass]
    exact hnothing _

end PatinaDispatchFailures
