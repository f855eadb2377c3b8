import OdpPlatform.InteractionContract

/-! # Marks in a history

Where a law speaks of what happened since some kind of call was last made, `SinceLast` splits
the history at that call. -/
namespace InteractionHistory

open InteractionProgram InteractionContract

variable {Call : Type} {Answer : Call → Type} {M : Call → Prop} {h : Trace Answer}

def SinceLast (M : Call → Prop) (h : Trace Answer) (e : Event Answer) (post : Trace Answer) :
    Prop :=
  M e.call ∧ (∃ pre, h = pre ++ e :: post) ∧ ∀ x ∈ post, ¬M x.call

theorem not_sinceLast_nil (e : Event Answer) (post : Trace Answer) : ¬SinceLast M [] e post := by
  rintro ⟨-, ⟨pre, hpre⟩, -⟩
  simp at hpre

theorem SinceLast.mark {e : Event Answer} (he : M e.call) : SinceLast M (h ++ [e]) e [] :=
  ⟨he, ⟨h, rfl⟩, nofun⟩

theorem SinceLast.snoc {e x : Event Answer} {post : Trace Answer} (hs : SinceLast M h e post)
    (hx : ¬M x.call) : SinceLast M (h ++ [x]) e (post ++ [x]) := by
  obtain ⟨he, ⟨pre, rfl⟩, hpost⟩ := hs
  refine ⟨he, ⟨pre, by simp⟩, fun y hy => ?_⟩
  rcases List.mem_append.mp hy with hy | hy
  · exact hpost y hy
  · cases List.mem_singleton.mp hy
    exact hx

theorem SinceLast.append {e : Event Answer} {post rest : Trace Answer} (hs : SinceLast M h e post)
    (hrest : ∀ x ∈ rest, ¬M x.call) : SinceLast M (h ++ rest) e (post ++ rest) := by
  obtain ⟨he, ⟨pre, rfl⟩, hpost⟩ := hs
  refine ⟨he, ⟨pre, by simp⟩, fun x hx => ?_⟩
  rcases List.mem_append.mp hx with hx | hx
  · exact hpost x hx
  · exact hrest x hx

/-- The last event is the mark, or the mark lies before it. -/
theorem SinceLast.cases_snoc {e x : Event Answer} {post : Trace Answer}
    (hs : SinceLast M (h ++ [x]) e post) :
    (e = x ∧ post = [] ∧ M x.call) ∨
      ∃ post', post = post' ++ [x] ∧ ¬M x.call ∧ SinceLast M h e post' := by
  obtain ⟨he, ⟨pre, hpre⟩, hpost⟩ := hs
  rcases split_snoc hpre with ⟨-, rfl, rfl⟩ | ⟨post', rfl, hsplit⟩
  · exact .inl ⟨rfl, rfl, he⟩
  · refine .inr ⟨post', rfl, hpost x (by simp), he, ⟨pre, hsplit⟩, fun z hz => ?_⟩
    exact hpost z (List.mem_append_left _ hz)

theorem SinceLast.unique {e e' : Event Answer} {post post' : Trace Answer}
    (hs : SinceLast M h e post) (hs' : SinceLast M h e' post') : e = e' ∧ post = post' := by
  induction h using List.reverseRecOn generalizing post post' with
  | nil => exact absurd hs (not_sinceLast_nil e post)
  | append_singleton h x ih =>
    rcases hs.cases_snoc with ⟨rfl, rfl, hx⟩ | ⟨q, rfl, hx, hq⟩
    · rcases hs'.cases_snoc with ⟨rfl, rfl, -⟩ | ⟨q', -, hx', -⟩
      · exact ⟨rfl, rfl⟩
      · exact absurd hx hx'
    · rcases hs'.cases_snoc with ⟨-, -, hx'⟩ | ⟨q', rfl, -, hq'⟩
      · exact absurd hx' hx
      · obtain ⟨rfl, rfl⟩ := ih hq hq'
        exact ⟨rfl, rfl⟩

def noteEvent (M : Call → Prop) [DecidablePred M] (s : Option (Event Answer × Trace Answer))
    (e : Event Answer) : Option (Event Answer × Trace Answer) :=
  if M e.call then some (e, []) else s.map fun x => (x.1, x.2 ++ [e])

/-- The last marked event together with what came after it. -/
def lastMark (M : Call → Prop) [DecidablePred M] (h : Trace Answer) :
    Option (Event Answer × Trace Answer) := h.foldl (noteEvent M) none

theorem sinceLast_of_lastMark [DecidablePred M] {e : Event Answer} {post : Trace Answer}
    (hl : lastMark M h = some (e, post)) : SinceLast M h e post := by
  induction h using List.reverseRecOn generalizing e post with
  | nil => cases hl
  | append_singleton h x ih =>
    rw [lastMark, List.foldl_append] at hl
    change noteEvent M (lastMark M h) x = some (e, post) at hl
    unfold noteEvent at hl
    split at hl
    next hx =>
      cases hl
      exact .mark hx
    next hx =>
      obtain ⟨⟨e', post'⟩, hl', heq⟩ := Option.map_eq_some_iff.mp hl
      cases heq
      exact (ih hl').snoc hx

end InteractionHistory
