import Mathlib.Data.List.Infix
import Mathlib.Logic.Function.Basic
import Mathlib.Logic.Relation
import OdpPlatform.InteractionMonitor

/-! # Threads

Programs that run side by side and meet only in the answers to their calls. Any of them may go
next, and what it is answered may depend on what all of them did before. -/
namespace InteractionThreads

open InteractionProgram InteractionContract InteractionMonitor

variable {ι : Type} [DecidableEq ι] {Call : ι → Type} {Answer : ∀ i, Call i → Type}
  {α σ : ι → Type} {T : Type}

structure Threads (Answer : ∀ i, Call i → Type) (α : ι → Type) where
  past : ∀ i, Trace (Answer i)
  rest : ∀ i, Program (Answer i) (α i)

abbrev Allows (Answer : ∀ i, Call i → Type) :=
  (∀ i, Trace (Answer i)) → (i : ι) → (c : Call i) → Answer i c → Prop

def extend (past : ∀ i, Trace (Answer i)) (i : ι) (e : Event (Answer i)) :
    ∀ i, Trace (Answer i) := Function.update past i (past i ++ [e])

@[simp] theorem extend_same (past : ∀ i, Trace (Answer i)) (i : ι) (e : Event (Answer i)) :
    extend past i e i = past i ++ [e] := Function.update_self i _ past

theorem extend_other {i j : ι} (h : j ≠ i) (past : ∀ i, Trace (Answer i)) (e : Event (Answer i)) :
    extend past i e j = past j := Function.update_of_ne h _ past

namespace Threads

def start (p : ∀ i, Program (Answer i) (α i)) : Threads Answer α := ⟨fun _ => [], p⟩

def resume (s : Threads Answer α) (i : ι) (e : Event (Answer i)) (q : Program (Answer i) (α i)) :
    Threads Answer α := ⟨extend s.past i e, Function.update s.rest i q⟩

inductive Step (allows : Allows Answer) (s : Threads Answer α) : Threads Answer α → Prop
  | answered {i : ι} {c : Call i} {k : Answer i c → Program (Answer i) (α i)} {r : Answer i c}
      (hask : s.rest i = .ask c k) (hr : allows s.past i c r) :
      Step allows s (s.resume i ⟨c, some r⟩ (k r))

def Reachable (allows : Allows Answer) (p : ∀ i, Program (Answer i) (α i)) :
    Threads Answer α → Prop := Relation.ReflTransGen (Step allows) (start p)

theorem Reachable.next {allows : Allows Answer} {p : ∀ i, Program (Answer i) (α i)}
    {s : Threads Answer α} (hs : Reachable allows p s) {i : ι} {c : Call i}
    {k : Answer i c → Program (Answer i) (α i)} (r : Answer i c) (hask : s.rest i = .ask c k)
    (hr : allows s.past i c r) : Reachable allows p (s.resume i ⟨c, some r⟩ (k r)) :=
  hs.tail (.answered hask hr)

end Threads

open Threads

variable {allows : Allows Answer} {p : ∀ i, Program (Answer i) (α i)} {s : Threads Answer α}

/-- One monitor for each thread, which relies on no more than the answers that are possible. -/
structure Verified (allows : Allows Answer) (p : ∀ i, Program (Answer i) (α i))
    (M : ∀ i, Monitor (Answer i) (σ i)) : Prop where
  relies : ∀ past i c r, allows past i c r → (M i).relies ((M i).state (past i)) c r
  steps : ∀ i, (M i).Steps (fun _ _ => True) (p i) (M i).start

def Remains (M : ∀ i, Monitor (Answer i) (σ i)) (s : Threads Answer α) : Prop :=
  ∀ i, (M i).Steps (fun _ _ => True) (s.rest i) ((M i).state (s.past i))

variable {M : ∀ i, Monitor (Answer i) (σ i)}

theorem remains_step {s' : Threads Answer α} (hV : Verified allows p M) (hs : Remains M s)
    (hstep : Step allows s s') : Remains M s' := by
  obtain @⟨i, c, k, r, hask, hr⟩ := hstep
  intro j
  by_cases hj : j = i
  · subst hj
    have hnow := hs j
    rw [hask] at hnow
    have hnext := hnow.2 r (hV.relies s.past j c r hr)
    change (M j).Steps _ (Function.update s.rest j (k r) j) ((M j).state (extend s.past j _ j))
    rwa [Function.update_self, extend_same, Monitor.state_snoc]
  · have hnow := hs j
    change (M j).Steps _ (Function.update s.rest i (k r) j) ((M j).state (extend s.past i _ j))
    rwa [Function.update_of_ne hj, extend_other hj]

theorem remains_reachable (hV : Verified allows p M) (hs : Reachable allows p s) :
    Remains M s := by
  induction hs with
  | refl => exact hV.steps
  | tail _ hstep ih => exact remains_step hV ih hstep

/-- What every permitted and answered call of every thread preserves holds in every
interleaving. -/
theorem reachable_induction {I : (∀ i, Trace (Answer i)) → Prop} (hV : Verified allows p M)
    (hnil : I fun _ => [])
    (hsnoc : ∀ past i c r, I past → (M i).permits ((M i).state (past i)) c →
      allows past i c r → I (extend past i ⟨c, some r⟩))
    (hs : Reachable allows p s) : I s.past := by
  induction hs with
  | refl => exact hnil
  | tail hreach hstep ih =>
    obtain @⟨i, c, k, r, hask, hr⟩ := hstep
    have hnow := remains_reachable hV hreach i
    rw [hask] at hnow
    exact hsnoc _ i c r ih hnow.1 hr

/-- What the permitted calls of one thread preserve, whatever the others do. -/
theorem thread_induction {i : ι} {J : Trace (Answer i) → Prop} (hV : Verified allows p M)
    (hnil : J []) (hsnoc : ∀ h c r, J h → (M i).permits ((M i).state h) c → J (h ++ [⟨c, some r⟩]))
    (hs : Reachable allows p s) : J (s.past i) := by
  apply reachable_induction (I := fun past => J (past i)) hV hnil _ hs
  intro past j c r hJ hpermits _
  by_cases hj : i = j
  · subst hj
    rw [extend_same]
    exact hsnoc _ c r hJ hpermits
  · rwa [extend_other hj]

theorem reachable_guarded (hV : Verified allows p M) (hs : Reachable allows p s) (i : ι) :
    Guarded (fun h c => (M i).permits ((M i).state h) c) (s.past i) :=
  thread_induction (J := Guarded fun h c => (M i).permits ((M i).state h) c) hV (guarded_nil _)
    (fun _ _ _ hJ hpermits => hJ.snoc hpermits) hs

theorem reachable_permits {i : ι} {c : Call i} {k : Answer i c → Program (Answer i) (α i)}
    (hV : Verified allows p M) (hs : Reachable allows p s) (hask : s.rest i = .ask c k) :
    (M i).permits ((M i).state (s.past i)) c := by
  have hnow := remains_reachable hV hs i
  rw [hask] at hnow
  exact hnow.1

/-- What was sent and not received yet, the oldest first. -/
def pending (sent received : List T) : List T := sent.drop received.length

theorem received_pending {sent received : List T} (h : received <+: sent) :
    received ++ pending sent received = sent := by
  obtain ⟨rest, rfl⟩ := h
  rw [pending, List.drop_left]

theorem prefix_receive {sent received : List T} {x : T} (h : received <+: sent)
    (hx : (pending sent received).head? = some x) : received ++ [x] <+: sent := by
  obtain ⟨rest, rfl⟩ := h
  rw [pending, List.drop_left] at hx
  cases rest with
  | nil => cases hx
  | cons y rest =>
    cases hx
    exact ⟨rest, by rw [List.append_assoc, List.singleton_append]⟩

theorem received_all {sent received : List T} (h : received <+: sent)
    (hx : (pending sent received).head? = none) : received = sent := by
  obtain ⟨rest, rfl⟩ := h
  rw [pending, List.drop_left, List.head?_eq_none_iff] at hx
  rw [hx, List.append_nil]

structure Channel (Answer : ∀ i, Call i → Type) (T : Type) where
  sender : ι
  receiver : ι
  apart : receiver ≠ sender
  sends : Event (Answer sender) → Option T
  receives : Event (Answer receiver) → Option T

namespace Channel

variable (C : Channel Answer T)

def sent (past : ∀ i, Trace (Answer i)) : List T := (past C.sender).filterMap C.sends
def received (past : ∀ i, Trace (Answer i)) : List T := (past C.receiver).filterMap C.receives

def Ordered (allows : Allows Answer) : Prop :=
  ∀ past c r x, allows past C.receiver c r → C.receives ⟨c, some r⟩ = some x →
    (pending (C.sent past) (C.received past)).head? = some x

theorem sent_extend_other {i : ι} (h : C.sender ≠ i) (past : ∀ i, Trace (Answer i))
    (e : Event (Answer i)) : C.sent (extend past i e) = C.sent past := by
  rw [sent, extend_other h, sent]

theorem received_extend_other {i : ι} (h : C.receiver ≠ i) (past : ∀ i, Trace (Answer i))
    (e : Event (Answer i)) : C.received (extend past i e) = C.received past := by
  rw [received, extend_other h, received]

theorem sent_extend (past : ∀ i, Trace (Answer i)) (e : Event (Answer C.sender)) :
    C.sent (extend past C.sender e) = C.sent past ++ (C.sends e).toList := by
  rw [sent, extend_same, List.filterMap_append, sent]
  cases he : C.sends e with
  | none => rw [List.filterMap_cons_none he, List.filterMap_nil, Option.toList_none]
  | some x => rw [List.filterMap_cons_some he, List.filterMap_nil, Option.toList_some]

theorem received_extend (past : ∀ i, Trace (Answer i)) (e : Event (Answer C.receiver)) :
    C.received (extend past C.receiver e) = C.received past ++ (C.receives e).toList := by
  rw [received, extend_same, List.filterMap_append, received]
  cases he : C.receives e with
  | none => rw [List.filterMap_cons_none he, List.filterMap_nil, Option.toList_none]
  | some x => rw [List.filterMap_cons_some he, List.filterMap_nil, Option.toList_some]

/-- One event keeps what was received a beginning of what was sent. -/
theorem received_prefix_extend (hC : C.Ordered allows) {past : ∀ i, Trace (Answer i)} {i : ι}
    {c : Call i} {r : Answer i c} (h : C.received past <+: C.sent past)
    (hr : allows past i c r) :
    C.received (extend past i ⟨c, some r⟩) <+: C.sent (extend past i ⟨c, some r⟩) := by
  by_cases hreceiver : C.receiver = i
  · subst hreceiver
    rw [C.sent_extend_other C.apart.symm, received_extend]
    cases hx : C.receives ⟨c, some r⟩ with
    | none => rwa [Option.toList_none, List.append_nil]
    | some x => exact prefix_receive h (hC past c r x hr hx)
  · rw [C.received_extend_other hreceiver]
    by_cases hsender : C.sender = i
    · subst hsender
      rw [sent_extend]
      exact h.trans (List.prefix_append _ _)
    · rwa [C.sent_extend_other hsender]

theorem received_prefix (hV : Verified allows p M) (hC : C.Ordered allows)
    (hs : Reachable allows p s) : C.received s.past <+: C.sent s.past :=
  reachable_induction (I := fun past => C.received past <+: C.sent past) hV List.prefix_rfl
    (fun _ _ _ _ h _ hr => C.received_prefix_extend hC h hr) hs

end Channel

end InteractionThreads
