import Mathlib.Logic.Equiv.Defs
import OdpPlatform.InteractionTraces

/-! # Programs inside a larger interface

A program written against one set of calls runs against a set that contains them; what is proved
of it there holds of it here. -/
namespace InteractionEmbedding

open InteractionProgram InteractionContract InteractionTraces

variable {Call Call' : Type} {Answer : Call → Type} {Answer' : Call' → Type} {α β : Type}

structure Embedding (Answer : Call → Type) (Answer' : Call' → Type) where
  call : Call → Call'
  answer : ∀ c, Answer c ≃ Answer' (call c)

namespace Embedding

variable (E : Embedding Answer Answer')

def program : Program Answer α → Program Answer' α
  | .done a => .done a
  | .ask c k => .ask (E.call c) fun r => program (k ((E.answer c).symm r))
  | .hang => .hang

def event (e : Event Answer) : Event Answer' := ⟨E.call e.call, e.answer.map (E.answer e.call)⟩

theorem only_program {A : Call' → Prop} {p : Program Answer α}
    (hp : Only (fun c => A (E.call c)) p) : Only A (E.program p) := by
  induction p with
  | done a => trivial
  | ask c k ih => exact ⟨hp.1, fun r => ih _ (hp.2 _)⟩
  | hang => trivial

theorem terminates_program {p : Program Answer α} (hp : Terminates p) :
    Terminates (E.program p) := by
  induction p with
  | done a => trivial
  | ask c k ih => exact fun r => ih _ (hp _)
  | hang => exact hp.elim

end Embedding

end InteractionEmbedding
