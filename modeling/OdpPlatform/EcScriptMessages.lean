import Mathlib.Data.List.Infix
import OdpPlatform.EcScript
import OdpPlatform.InteractionContract

/-! # test-script: what the messages of failing rows say

A message names an undefined variable only where the code found that variable unbound; every other
message is apart from those. -/
namespace EcScript

open InteractionProgram InteractionContract

theorem append_ne_append {p q : String} (s t : String) (hpq : ¬p.toList <+: q.toList)
    (hqp : ¬q.toList <+: p.toList) : p ++ s ≠ q ++ t := by
  intro heq
  have hlist : p.toList ++ s.toList = q.toList ++ t.toList := by
    rw [← String.toList_append, ← String.toList_append, heq]
  have hp : p.toList <+: q.toList ++ t.toList := ⟨s.toList, hlist⟩
  rcases List.prefix_or_prefix_of_prefix hp (List.prefix_append q.toList t.toList) with h | h
  · exact hpq h
  · exact hqp h

theorem append_ne_append_of_last {s t p q : String} (c d : Char) (hp : p.toList = [c])
    (hq : q.toList = [d]) (hcd : c ≠ d) : s ++ p ≠ t ++ q := by
  intro heq
  have hlast := congrArg (fun u => u.toList.getLast?) heq
  simp only [String.toList_append, hp, hq, List.getLast?_concat, Option.some.injEq] at hlast
  exact hcd hlast

theorem undefinedVariable_injective : Function.Injective undefinedVariable := by
  intro x y hxy
  unfold undefinedVariable at hxy
  rwa [String.append_left_inj, String.append_right_inj] at hxy

theorem undefinedVariable_ne {p : String} (t x : String)
    (hpu : ¬p.toList <+: ("undefined variable `" : String).toList)
    (hup : ¬("undefined variable `" : String).toList <+: p.toList) :
    p ++ t ≠ undefinedVariable x := by
  have happart := append_ne_append t (x ++ "`") hpu hup
  rwa [← String.append_assoc] at happart

theorem SourceError.text_ne_undefinedVariable (e : SourceError) (x : String) :
    e.text ≠ undefinedVariable x := by
  unfold SourceError.text undefinedVariable
  have hclose : (")" : String).toList = [')'] := by simp
  have hquote : ("`" : String).toList = ['`'] := by simp
  exact append_ne_append_of_last ')' '`' hclose hquote (by decide)

variable {α : Type}

theorem asNum_error (v : Value α) {e : String} (he : v.asNum = .error e) :
    ∃ t, e = "expected number, got " ++ t := by
  cases v with
  | num n => cases he
  | unit | bool | struct => exact ⟨_, (Except.error.inj he).symm⟩

theorem asNum_ne_undefinedVariable (v : Value α) (x : String) :
    v.asNum ≠ .error (undefinedVariable x) := by
  intro hv
  obtain ⟨t, ht⟩ := asNum_error v hv
  exact undefinedVariable_ne t x (by decide) (by decide) ht.symm

theorem field_ne_undefinedVariable (seg : String) (v : Value α) (x : String) :
    v.field seg ≠ .error (undefinedVariable x) := by
  intro hv
  cases v with
  | struct fields =>
    simp only [Value.field] at hv
    split at hv
    · cases hv
    · simp only [Except.error.injEq, String.append_assoc] at hv
      exact undefinedVariable_ne _ x (by decide) (by decide) hv
  | unit | num | bool =>
    simp only [Value.field, Except.error.injEq, String.append_assoc] at hv
    exact undefinedVariable_ne _ x (by decide) (by decide) hv

theorem project_ne_undefinedVariable (path : List String) (v : Value α) (x : String) :
    v.project path ≠ .error (undefinedVariable x) := by
  induction path generalizing v with
  | nil => nofun
  | cons seg path ih =>
    rw [Value.project]
    cases hfield : v.field seg with
    | ok next => exact ih next
    | error e =>
      intro he
      exact field_ne_undefinedVariable seg v x (hfield.trans he)

section Calls

variable {env : Env α} {x : String}

def Method.operand : Method α → Option (Operand α)
  | .setThreshold _ op | .setRpm op | .setBtp op | .setTimerValue _ op
  | .setExpiredTimerWakePolicy _ op => some op
  | _ => none

theorem numArg_undefined (hx : env x = none) :
    numArg (.var x) env = .error (undefinedVariable x) := by
  simp [numArg, hx]

theorem numArg_blames {op : Operand α} (he : numArg op env = .error (undefinedVariable x)) :
    op = .var x ∧ env x = none := by
  cases op with
  | num n => cases he
  | bool b =>
    have hbool : "setter argument: " ++ "expected number, got bool" = undefinedVariable x :=
      Except.error.inj he
    exact absurd hbool (undefinedVariable_ne _ x (by decide) (by decide))
  | var y =>
    rw [numArg] at he
    split at he
    next hy =>
      cases undefinedVariable_injective (Except.error.inj he)
      exact ⟨rfl, hy⟩
    next w hy => exact absurd he (asNum_ne_undefinedVariable w x)

/-- An error that says that a variable is undefined says so of the method's own argument. -/
def Blames (m : Method α) (env : Env α) (r : Except String (Value α)) : Prop :=
  ∀ x, r = .error (undefinedVariable x) → m.operand = some (.var x) ∧ env x = none

theorem answered_blames {β : Type} (m : Method α) (env : Env α)
    (call : Script α (Except SourceError β)) (convert : β → Value α) (h : ScriptTrace α) :
    Meets .free (fun _ r => Blames m env r) (answered call convert) h := by
  refine (Meets.trivial (fun _ _ => True.intro) call h).bind fun h' answer _ _ => ?_
  cases answer with
  | ok b => exact nofun
  | error e =>
    intro x hx
    exact absurd (Except.error.inj hx) (e.text_ne_undefinedVariable x)

theorem withArg_blames {β γ : Type} {m : Method α} {op : Operand α} {arg : Except String β}
    (hm : m.operand = some op)
    (harg : ∀ x, arg = .error (undefinedVariable x) → op = .var x ∧ env x = none)
    (setter : β → Script α (Except SourceError γ)) (convert : γ → Value α) (h : ScriptTrace α) :
    Meets .free (fun _ r => Blames m env r) (withArg arg fun b => answered (setter b) convert)
      h := by
  cases arg with
  | ok b => exact answered_blames m env (setter b) convert h
  | error e =>
    intro x hx
    cases hx
    obtain ⟨rfl, hnone⟩ := harg x rfl
    exact ⟨hm, hnone⟩

variable [HostNumber α]

theorem u32Arg_undefined (hx : env x = none) :
    u32Arg (.var x) env = .error (undefinedVariable x) := by
  simp [u32Arg, numArg_undefined hx]

theorem u32Arg_blames {op : Operand α} (he : u32Arg op env = .error (undefinedVariable x)) :
    op = .var x ∧ env x = none := by
  rw [u32Arg] at he
  split at he
  next e harg =>
    cases he
    exact numArg_blames harg
  next n harg =>
    split at he
    · simp only [Except.error.injEq, String.append_assoc] at he
      exact absurd he (undefinedVariable_ne _ x (by decide) (by decide))
    · cases he

theorem invoke_blames (m : Method α) (env : Env α) (h : ScriptTrace α) :
    Meets .free (fun _ r => Blames m env r) (invoke m env) h := by
  cases m with
  | setThreshold | setRpm => exact withArg_blames rfl (fun _ => numArg_blames) _ _ h
  | setBtp | setTimerValue | setExpiredTimerWakePolicy =>
    exact withArg_blames rfl (fun _ => u32Arg_blames) _ _ h
  | getTemperature | getRpm | getMinRpm | getMaxRpm | getThreshold | getBst | getBix
  | getCapabilities | getRealTime | setRealTime | getWakeStatus | getExpiredTimerWakePolicy
  | getTimerValue | clearWakeStatus => exact answered_blames _ env _ _ h

theorem evalCall_blames (call : Call α) (env : Env α) (h : ScriptTrace α) :
    Meets .free (fun _ r => Blames call.method env r) (evalCall call env) h := by
  apply (invoke_blames call.method env h).bind
  intro h' r _ hr
  cases r with
  | error e => exact hr
  | ok v =>
    intro x hx
    exact absurd hx (project_ne_undefinedVariable call.projection v x)

/-- A setter of an unbound variable asks nothing of the source. -/
theorem evalCall_undefined {call : Call α} (hcall : call.method.operand = some (.var x))
    (hx : env x = none) : evalCall call env = .done (.error (undefinedVariable x)) := by
  have hinvoke : invoke call.method env = .done (.error (undefinedVariable x)) := by
    cases hm : call.method with
    | setThreshold t op | setRpm op =>
      simp only [hm, Method.operand, Option.some.injEq] at hcall
      simp [invoke, hcall, numArg_undefined hx, withArg]
    | setBtp op | setTimerValue t op | setExpiredTimerWakePolicy t op =>
      simp only [hm, Method.operand, Option.some.injEq] at hcall
      simp [invoke, hcall, u32Arg_undefined hx, withArg]
    | getTemperature | getRpm | getMinRpm | getMaxRpm | getThreshold | getBst | getBix
    | getCapabilities | getRealTime | setRealTime | getWakeStatus | getExpiredTimerWakePolicy
    | getTimerValue | clearWakeStatus => simp [hm, Method.operand] at hcall
  simp [evalCall, hinvoke]

end Calls

section Verbs

variable {env : Env α} {x : String}

def Verb.operand : Verb α → Option (Operand α)
  | .eq op | .ne op | .gt op | .ge op | .lt op | .le op | .okEq op | .okGt op | .okGe op
  | .okLt op | .okLe op => some op
  | .inRange _ _ _ | .okInRange _ _ _ | .isOk | .isErr => none

/-- The detail of a row whose call failed with `e`. -/
def callErrorDetail (verb : Verb α) (e : String) : String :=
  match verb with
  | .isOk => "expected Ok, got Err(" ++ e ++ ")"
  | verb => if verb.isOkFamily then "expected Ok(_), got Err(" ++ e ++ ")" else "call failed: " ++ e

theorem callErrorDetail_injective (verb : Verb α) : Function.Injective (callErrorDetail verb) := by
  intro e e' hee
  unfold callErrorDetail at hee
  split at hee
  · rwa [String.append_left_inj, String.append_right_inj] at hee
  · split at hee
    · rwa [String.append_left_inj, String.append_right_inj] at hee
    · rwa [String.append_right_inj] at hee

inductive ValueDetail (env : Env α) (op : Option (Operand α)) : String → Prop where
  | undefined (x : String) (hop : op = some (.var x)) (hx : env x = none) :
      ValueDetail env op (undefinedVariable x)
  | actual (t : String) : ValueDetail env op ("actual=" ++ t)
  | notNumber (t : String) : ValueDetail env op ("expected number, got " ++ t)
  | unexpectedOk (t : String) : ValueDetail env op ("expected Err, got Ok(" ++ t)

theorem ValueDetail.of_asNum {op : Option (Operand α)} {v : Value α} {d : String}
    (hv : v.asNum = .error d) : ValueDetail env op d := by
  obtain ⟨t, rfl⟩ := asNum_error v hv
  exact .notNumber t

theorem verdict_detail (op : Option (Operand α)) (env : Env α) {ok : Bool} {t d : String}
    (hd : verdict ok ("actual=" ++ t) = (false, d)) : ValueDetail env op d := by
  simp only [verdict] at hd
  split at hd
  · cases hd
  · cases hd
    exact .actual t

def callErrorOpenings : List String :=
  ["expected Ok, got Err(", "expected Ok(_), got Err(", "call failed: "]

theorem callErrorDetail_opening (verb : Verb α) (e : String) :
    ∃ p ∈ callErrorOpenings, ∃ t, callErrorDetail verb e = p ++ t := by
  unfold callErrorDetail
  split
  · exact ⟨"expected Ok, got Err(", by simp [callErrorOpenings], _, String.append_assoc⟩
  · split
    · exact ⟨"expected Ok(_), got Err(", by simp [callErrorOpenings], _, String.append_assoc⟩
    · exact ⟨"call failed: ", by simp [callErrorOpenings], e, rfl⟩

def valueOpenings : List String :=
  ["undefined variable `", "actual=", "expected number, got ", "expected Err, got Ok("]

theorem ValueDetail.opening {op : Option (Operand α)} {d : String}
    (hd : ValueDetail env op d) : ∃ p ∈ valueOpenings, ∃ t, d = p ++ t := by
  cases hd with
  | undefined x _ _ =>
    exact ⟨"undefined variable `", by simp [valueOpenings], _, String.append_assoc⟩
  | actual t => exact ⟨"actual=", by simp [valueOpenings], t, rfl⟩
  | notNumber t => exact ⟨"expected number, got ", by simp [valueOpenings], t, rfl⟩
  | unexpectedOk t => exact ⟨"expected Err, got Ok(", by simp [valueOpenings], t, rfl⟩

theorem openings_apart : ∀ p ∈ valueOpenings, ∀ q ∈ callErrorOpenings,
    ¬p.toList <+: q.toList ∧ ¬q.toList <+: p.toList := by
  decide

theorem ValueDetail.ne_callErrorDetail {op : Option (Operand α)} {d : String}
    (hd : ValueDetail env op d) (verb : Verb α) (e : String) :
    d ≠ callErrorDetail verb e := by
  obtain ⟨p, hp, t, rfl⟩ := hd.opening
  obtain ⟨q, hq, u, hdetail⟩ := callErrorDetail_opening verb e
  rw [hdetail]
  exact append_ne_append t u (openings_apart p hp q hq).1 (openings_apart p hp q hq).2

theorem ValueDetail.blames {op : Option (Operand α)}
    (hd : ValueDetail env op (undefinedVariable x)) :
    op = some (.var x) ∧ env x = none := by
  generalize hdetail : undefinedVariable x = d at hd
  cases hd with
  | undefined y hop hy =>
    cases undefinedVariable_injective hdetail
    exact ⟨hop, hy⟩
  | actual t => exact absurd hdetail.symm (undefinedVariable_ne t x (by decide) (by decide))
  | notNumber t => exact absurd hdetail.symm (undefinedVariable_ne t x (by decide) (by decide))
  | unexpectedOk t => exact absurd hdetail.symm (undefinedVariable_ne t x (by decide) (by decide))

theorem callErrorDetail_ne_undefinedVariable (verb : Verb α) (e x : String) :
    callErrorDetail verb e ≠ undefinedVariable x := by
  have hd : ValueDetail (fun _ => none : Env α) (some (.var x)) (undefinedVariable x) :=
    .undefined x rfl rfl
  exact (hd.ne_callErrorDetail verb e).symm

variable [HostNumber α]

theorem applyVerb_error {verb : Verb α} (hverb : verb ≠ .isErr) (e : String) (env : Env α) :
    applyVerb verb (.error e) env = (false, callErrorDetail verb e) := by
  cases verb <;> first | rfl | exact absurd rfl hverb

theorem applyVerb_ok {verb : Verb α} (hok : verb ≠ .isOk) (herr : verb ≠ .isErr) (v : Value α)
    (env : Env α) : applyVerb verb (.ok v) env = applyValueVerb verb v env := by
  cases verb <;> first | rfl | exact absurd rfl hok | exact absurd rfl herr

theorem cmp_undefined (comparison : Comparison) (v : Value α) (hx : env x = none) :
    cmp comparison v (.var x) env = (false, undefinedVariable x) := by
  simp [cmp, resolve, hx]

theorem applyValueVerb_undefined {verb : Verb α} (hverb : verb.operand = some (.var x))
    (hx : env x = none) (v : Value α) :
    applyValueVerb verb v env = (false, undefinedVariable x) := by
  cases verb <;> simp only [Verb.operand, Option.some.injEq, reduceCtorEq] at hverb <;>
    simp only [applyValueVerb, hverb, cmp_undefined _ _ hx]

theorem cmpNum_detail (op : Option (Operand α)) (env : Env α) {comparison : Comparison}
    {v w : Value α} {d : String} (hd : cmpNum comparison v w = (false, d)) :
    ValueDetail env op d := by
  simp only [cmpNum] at hd
  split at hd
  next a b ha hb =>
    simp only [String.append_assoc] at hd
    exact verdict_detail op env hd
  next e hv =>
    cases hd
    exact .of_asNum hv
  next e hw _ =>
    cases hd
    exact .of_asNum hw

theorem cmp_detail {comparison : Comparison} {v : Value α} {op : Operand α} {d : String}
    (hd : cmp comparison v op env = (false, d)) : ValueDetail env (some op) d := by
  simp only [cmp] at hd
  split at hd
  next e hop =>
    cases hd
    cases op with
    | num | bool => cases hop
    | var x =>
      rw [resolve] at hop
      split at hop
      · cases hop
      next hx =>
        cases hop
        exact .undefined x rfl hx
  next w hop =>
    split at hd
    · simp only [String.append_assoc] at hd
      exact verdict_detail (some op) env hd
    · simp only [String.append_assoc] at hd
      exact verdict_detail (some op) env hd
    · exact cmpNum_detail (some op) env hd

theorem inRange_detail (op : Option (Operand α)) (env : Env α) {lo hi : α} {inclusive : Bool}
    {v : Value α} {d : String} (hd : inRange lo hi inclusive v = (false, d)) :
    ValueDetail env op d := by
  simp only [inRange] at hd
  split at hd
  next e hv =>
    cases hd
    exact .of_asNum hv
  next a hv =>
    simp only [String.append_assoc] at hd
    exact verdict_detail op env hd

theorem applyValueVerb_detail {verb : Verb α} (hok : verb ≠ .isOk) (herr : verb ≠ .isErr)
    {v : Value α} {d : String} (hd : applyValueVerb verb v env = (false, d)) :
    ValueDetail env verb.operand d := by
  cases verb with
  | eq | ne | gt | ge | lt | le | okEq | okGt | okGe | okLt | okLe =>
    simp only [applyValueVerb] at hd
    exact cmp_detail hd
  | inRange | okInRange => exact inRange_detail none env hd
  | isOk => exact absurd rfl hok
  | isErr => exact absurd rfl herr

/-- The two ways a row can fail: the call failed, or it returned a value the verb rejects. -/
theorem applyVerb_false {verb : Verb α} {r : Except String (Value α)} {d : String}
    (hfail : applyVerb verb r env = (false, d)) :
    (∃ e, r = .error e ∧ verb ≠ .isErr ∧ d = callErrorDetail verb e) ∨
      ∃ v, r = .ok v ∧ ValueDetail env verb.operand d := by
  cases r with
  | error e =>
    have hverb : verb ≠ .isErr := by rintro rfl; cases hfail
    rw [applyVerb_error hverb] at hfail
    cases hfail
    exact .inl ⟨e, rfl, hverb, rfl⟩
  | ok v =>
    refine .inr ⟨v, rfl, ?_⟩
    by_cases hok : verb = .isOk
    · subst hok
      cases hfail
    by_cases herr : verb = .isErr
    · subst herr
      simp only [applyVerb, String.append_assoc] at hfail
      cases hfail
      exact .unexpectedOk _
    rw [applyVerb_ok hok herr] at hfail
    exact applyValueVerb_detail hok herr hfail

end Verbs

end EcScript
