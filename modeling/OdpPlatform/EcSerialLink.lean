import OdpPlatform.EcSerial

/-! # Which request a serial reply belongs to

The link between the clones of a `Serial` and the EC: requests wait in order for the EC, replies
wait in order for the reader, and the port's mutex lets one call at a time near them. Requests
are numbered, and each reply carries the number of the request that it answers; no code sees
these numbers. -/
namespace EcSerialLink

open ByteBuffer EcSerial

variable {Resp : Type}

/-- A finished call: the number of its request, the requests without a reply in the input when
the call cleared it, the reply it read, and what it returned. -/
structure Completed (Resp : Type) where
  request : Request
  number : ℕ
  outstanding : List ℕ
  reply : Option (ℕ × Message)
  result : Except Error Resp

/-- Who has the mutex, and how far `send` has come. -/
inductive Port where
  | free
  | cleared (request : Request) (outstanding : List ℕ)
  | reading (request : Request) (number : ℕ) (outstanding : List ℕ)

structure Link (Resp : Type) where
  pending : List (ℕ × Bytes) := []
  input : List (ℕ × Message) := []
  sent : ℕ := 0
  port : Port := .free
  log : List (Completed Resp) := []

def unanswered (s : Link Resp) : List ℕ := s.pending.map Prod.fst

section Steps

variable (s : Link Resp)

/-- `lock`, then `clear(ClearBuffer::Input)`. -/
def clear (request : Request) : Link Resp :=
  { s with input := [], port := .cleared request (unanswered s) }

def write (request : Request) (outstanding : List ℕ) : Link Resp :=
  { s with
    pending := s.pending ++ [(s.sent, request.message)]
    sent := s.sent + 1
    port := .reading request s.sent outstanding }

def finish (call : Completed Resp) : Link Resp :=
  { s with port := .free, log := call :: s.log }

def timeoutError : Error := .io "Operation timed out"

end Steps

section Execution

variable (deserialize : Destination → UInt16 → Bytes → Except String Resp)

inductive Step : Link Resp → Link Resp → Prop where
  /-- The request does not serialize, the mutex is poisoned, or clearing fails. -/
  | refused {s : Link Resp} (request : Request) (e : Error) : s.port = .free →
      Step s (finish s ⟨request, s.sent, unanswered s, none, .error e⟩)
  | clear {s : Link Resp} (request : Request) : s.port = .free → Step s (clear s request)
  /-- Serializing or writing fails, and the EC gets no whole request. -/
  | writeFails {s : Link Resp} {request : Request} {outstanding : List ℕ} (e : Error) :
      s.port = .cleared request outstanding →
        Step s (finish s ⟨request, s.sent, outstanding, none, .error e⟩)
  | write {s : Link Resp} {request : Request} {outstanding : List ℕ} :
      s.port = .cleared request outstanding → Step s (write s request outstanding)
  | flushFails {s : Link Resp} {request : Request} {number : ℕ} {outstanding : List ℕ} (e : Error) :
      s.port = .reading request number outstanding →
        Step s (finish s ⟨request, number, outstanding, none, .error e⟩)
  /-- The EC answers the oldest request, whatever the reply. -/
  | answer {s : Link Resp} {number : ℕ} {sent : Bytes} {rest : List (ℕ × Bytes)}
      (message : Message) : s.pending = (number, sent) :: rest →
        Step s { s with pending := rest, input := s.input ++ [(number, message)] }
  | read {s : Link Resp} {request : Request} {number source : ℕ} {outstanding : List ℕ}
      {message : Message} {rest : List (ℕ × Message)} :
      s.port = .reading request number outstanding → s.input = (source, message) :: rest →
        Step s (finish { s with input := rest }
          ⟨request, number, outstanding, some (source, message),
            handleReply deserialize request.dst message⟩)
  | timeout {s : Link Resp} {request : Request} {number : ℕ} {outstanding : List ℕ} :
      s.port = .reading request number outstanding → s.input = [] →
        Step s (finish s ⟨request, number, outstanding, none, .error timeoutError⟩)

inductive Reachable : Link Resp → Prop where
  | init : Reachable {}
  | step {s s' : Link Resp} : Reachable s → Step deserialize s s' → Reachable s'

/-- A run in which no call clears the input while the EC still owes a reply. -/
inductive QuietlyReachable : Link Resp → Prop where
  | init : QuietlyReachable {}
  | step {s s' : Link Resp} : QuietlyReachable s → Step deserialize s s' →
      (s.port = .free → s'.port ≠ .free → s.pending = []) → QuietlyReachable s'

end Execution

/-- The numbers of the replies to come, in the order in which they will be read. -/
def numbers (s : Link Resp) : List ℕ := s.input.map Prod.fst ++ unanswered s

theorem numbers_clear (s : Link Resp) (request : Request) :
    numbers (clear s request) = unanswered s := rfl

theorem numbers_write (s : Link Resp) (request : Request) (outstanding : List ℕ) :
    numbers (write s request outstanding) = numbers s ++ [s.sent] := by
  simp [numbers, unanswered, write]

/-- An answer moves a number from the EC to the input. -/
theorem numbers_answer {s : Link Resp} {number : ℕ} {sent : Bytes} {rest : List (ℕ × Bytes)}
    (message : Message) (hpending : s.pending = (number, sent) :: rest) :
    numbers { s with pending := rest, input := s.input ++ [(number, message)] } = numbers s := by
  simp [numbers, unanswered, hpending]

/-- The reply that a call read belongs to its own request exactly when nothing was outstanding. -/
def SourceIff (call : Completed Resp) : Prop :=
  ∀ source message, call.reply = some (source, message) →
    (source = call.number ↔ call.outstanding = [])

def Read (deserialize : Destination → UInt16 → Bytes → Except String Resp)
    (call : Completed Resp) : Prop :=
  ∀ resp, call.result = .ok resp → ∃ source message, call.reply = some (source, message) ∧
    handleReply deserialize call.request.dst message = .ok resp

structure Inv (deserialize : Destination → UInt16 → Bytes → Except String Resp)
    (s : Link Resp) : Prop where
  sent : ∀ k ∈ numbers s, k < s.sent
  cleared : ∀ request outstanding, s.port = .cleared request outstanding → numbers s = outstanding
  reading : ∀ request number outstanding, s.port = .reading request number outstanding →
    numbers s = outstanding ++ [number] ∧ ∀ k ∈ outstanding, k < number
  log : ∀ call ∈ s.log, SourceIff call ∧ Read deserialize call

variable {deserialize : Destination → UInt16 → Bytes → Except String Resp} {s s' : Link Resp}

theorem inv_init : Inv deserialize ({} : Link Resp) where
  sent := nofun
  cleared := nofun
  reading := nofun
  log := nofun

/-- Calls that return what they read keep the invariant. -/
theorem inv_finish {call : Completed Resp} (hs : Inv deserialize s) (hsource : SourceIff call)
    (hread : Read deserialize call) : Inv deserialize (finish s call) where
  sent := hs.sent
  cleared := nofun
  reading := nofun
  log := by
    intro c hc
    rcases List.mem_cons.mp hc with rfl | hc
    · exact ⟨hsource, hread⟩
    · exact hs.log c hc

/-- So do calls that fail without a reply. -/
theorem inv_failed (hs : Inv deserialize s) (request : Request) (number : ℕ)
    (outstanding : List ℕ) (e : Error) :
    Inv deserialize (finish s ⟨request, number, outstanding, none, .error e⟩) :=
  inv_finish hs nofun nofun

theorem inv_clear (hs : Inv deserialize s) (request : Request) :
    Inv deserialize (clear s request) where
  sent k hk := hs.sent k (List.mem_append_right _ hk)
  cleared := by
    rintro request' outstanding ⟨⟩
    exact numbers_clear s request
  reading := nofun
  log := hs.log

theorem inv_write {request : Request} {outstanding : List ℕ} (hs : Inv deserialize s)
    (hport : s.port = .cleared request outstanding) :
    Inv deserialize (write s request outstanding) where
  sent := by
    intro k hk
    rw [numbers_write] at hk
    rcases List.mem_append.mp hk with hk | hk
    · exact Nat.lt_succ_of_lt (hs.sent k hk)
    · rw [List.mem_singleton.mp hk]
      exact Nat.lt_succ_self s.sent
  cleared := nofun
  reading := by
    rintro request' number outstanding' ⟨⟩
    have hnumbers := hs.cleared request outstanding hport
    constructor
    · rw [numbers_write, hnumbers]
    · intro k hk
      exact hs.sent k (by rwa [hnumbers])
  log := hs.log

theorem inv_answer {number : ℕ} {sent : Bytes} {rest : List (ℕ × Bytes)} (hs : Inv deserialize s)
    (message : Message) (hpending : s.pending = (number, sent) :: rest) :
    Inv deserialize { s with pending := rest, input := s.input ++ [(number, message)] } := by
  have hnumbers := numbers_answer message hpending
  constructor
  · rw [hnumbers]
    exact hs.sent
  · rw [hnumbers]
    exact hs.cleared
  · rw [hnumbers]
    exact hs.reading
  · exact hs.log

/-- The first reply in the input belongs to the oldest outstanding request, if there is one. -/
theorem source_of_reading {number source : ℕ} {outstanding : List ℕ} {rest : List ℕ}
    (hnumbers : source :: rest = outstanding ++ [number]) (holder : ∀ k ∈ outstanding, k < number) :
    source = number ↔ outstanding = [] := by
  cases outstanding with
  | nil =>
    obtain ⟨rfl, -⟩ := List.cons_eq_cons.mp hnumbers
    exact ⟨fun _ => rfl, fun _ => rfl⟩
  | cons k outstanding =>
    obtain ⟨rfl, -⟩ := List.cons_eq_cons.mp hnumbers
    have hlt := holder source List.mem_cons_self
    exact ⟨fun heq => absurd heq hlt.ne, nofun⟩

theorem inv_read {request : Request} {number source : ℕ} {outstanding : List ℕ} {message : Message}
    {rest : List (ℕ × Message)} (hs : Inv deserialize s)
    (hport : s.port = .reading request number outstanding)
    (hinput : s.input = (source, message) :: rest) :
    Inv deserialize (finish { s with input := rest } ⟨request, number, outstanding,
      some (source, message), handleReply deserialize request.dst message⟩) := by
  obtain ⟨hnumbers, holder⟩ := hs.reading request number outstanding hport
  have hfirst : numbers s = source :: (rest.map Prod.fst ++ unanswered s) := by
    rw [numbers, hinput]
    rfl
  refine ⟨?_, nofun, nofun, ?_⟩
  · intro k hk
    apply hs.sent k
    rw [hfirst]
    exact List.mem_cons_of_mem source hk
  · intro call hcall
    rcases List.mem_cons.mp hcall with rfl | hcall
    · constructor
      · rintro source' message' ⟨⟩
        exact source_of_reading (hfirst.symm.trans hnumbers) holder
      · intro resp hresp
        exact ⟨source, message, rfl, hresp⟩
    · exact hs.log call hcall

theorem inv_step (hs : Inv deserialize s) (hstep : Step deserialize s s') :
    Inv deserialize s' := by
  cases hstep with
  | refused request e _ => exact inv_failed hs _ _ _ e
  | clear request _ => exact inv_clear hs request
  | writeFails e _ => exact inv_failed hs _ _ _ e
  | write hport => exact inv_write hs hport
  | flushFails e _ => exact inv_failed hs _ _ _ e
  | answer message hpending => exact inv_answer hs message hpending
  | read hport hinput => exact inv_read hs hport hinput
  | timeout _ _ => exact inv_failed hs _ _ _ _

theorem reachable_inv (hs : Reachable deserialize s) : Inv deserialize s := by
  induction hs with
  | init => exact inv_init
  | step _ hstep ih => exact inv_step ih hstep

theorem QuietlyReachable.reachable (hs : QuietlyReachable deserialize s) :
    Reachable deserialize s := by
  induction hs with
  | init => exact .init
  | step _ hstep _ ih => exact .step ih hstep

/-- No call that got so far as to clear the input found a request outstanding. -/
structure NothingOutstanding (s : Link Resp) : Prop where
  cleared : ∀ request outstanding, s.port = .cleared request outstanding → outstanding = []
  reading : ∀ request number outstanding, s.port = .reading request number outstanding →
    outstanding = []
  log : ∀ call ∈ s.log, ∀ resp, call.result = .ok resp → call.outstanding = []

theorem nothingOutstanding_finish {call : Completed Resp}
    (hlog : ∀ call ∈ s.log, ∀ resp, call.result = .ok resp → call.outstanding = [])
    (hcall : ∀ resp, call.result = .ok resp → call.outstanding = []) :
    NothingOutstanding (finish s call) where
  cleared := nofun
  reading := nofun
  log := by
    intro c hc
    rcases List.mem_cons.mp hc with rfl | hc
    · exact hcall
    · exact hlog c hc

theorem nothingOutstanding_step (hs : NothingOutstanding s) (hstep : Step deserialize s s')
    (hquiet : s.port = .free → s'.port ≠ .free → s.pending = []) : NothingOutstanding s' := by
  cases hstep with
  | refused request e _ => exact nothingOutstanding_finish hs.log nofun
  | clear request hfree =>
    refine ⟨?_, nofun, hs.log⟩
    rintro request' outstanding ⟨⟩
    rw [unanswered, hquiet hfree nofun, List.map_nil]
  | writeFails e _ => exact nothingOutstanding_finish hs.log nofun
  | write hport =>
    refine ⟨nofun, ?_, hs.log⟩
    rintro request number outstanding ⟨⟩
    exact hs.cleared _ _ hport
  | flushFails e _ => exact nothingOutstanding_finish hs.log nofun
  | answer message _ => exact ⟨hs.cleared, hs.reading, hs.log⟩
  | read hport _ =>
    have hnone := hs.reading _ _ _ hport
    exact nothingOutstanding_finish hs.log fun _ _ => hnone
  | timeout _ _ => exact nothingOutstanding_finish hs.log nofun

theorem quietly_nothingOutstanding (hs : QuietlyReachable deserialize s) :
    NothingOutstanding s := by
  induction hs with
  | init => exact ⟨nofun, nofun, nofun⟩
  | step _ hstep hquiet ih => exact nothingOutstanding_step ih hstep hquiet

def OwnReply (deserialize : Destination → UInt16 → Bytes → Except String Resp)
    (call : Completed Resp) (resp : Resp) : Prop :=
  ∃ message, call.reply = some (call.number, message) ∧
    handleReply deserialize call.request.dst message = .ok resp

theorem ownReply_iff {call : Completed Resp} {resp : Resp} (hs : Reachable deserialize s)
    (hcall : call ∈ s.log) (hok : call.result = .ok resp) :
    OwnReply deserialize call resp ↔ call.outstanding = [] := by
  obtain ⟨hsource, hread⟩ := (reachable_inv hs).log call hcall
  obtain ⟨source, message, hreply, hresp⟩ := hread resp hok
  rw [← hsource source message hreply]
  constructor
  · rintro ⟨message', hown, -⟩
    cases hreply.symm.trans hown
    rfl
  · rintro rfl
    exact ⟨message, hreply, hresp⟩

/-- Where no call clears the input while a reply is owed, every response is that of the call's
own request; and in any run a response is, exactly when the call found nothing outstanding. -/
theorem reply_correlated_iff
    (deserialize : Destination → UInt16 → Bytes → Except String Resp) :
    (∀ s, QuietlyReachable deserialize s → ∀ call ∈ s.log, ∀ resp, call.result = .ok resp →
      OwnReply deserialize call resp) ∧
    ∀ s, Reachable deserialize s → ∀ call ∈ s.log, ∀ resp, call.result = .ok resp →
      (OwnReply deserialize call resp ↔ call.outstanding = []) := by
  constructor
  · intro s hs call hcall resp hok
    rw [ownReply_iff hs.reachable hcall hok]
    exact (quietly_nothingOutstanding hs).log call hcall resp hok
  · intro s hs call hcall resp hok
    exact ownReply_iff hs hcall hok

/-- A response type that keeps the payload. -/
def payload : Destination → UInt16 → Bytes → Except String Bytes := fun _ _ body => .ok body

def getTimerValue (timerId : UInt8) : Request := ⟨.timeAlarm, 9, [timerId, 0, 0, 0]⟩

def timerSeconds (seconds : UInt32) : Message :=
  ⟨odpMessageType, buildOdpHeader false 0x0B 9 ++ leBytes seconds⟩

/-- One call, answered in time. -/
theorem reply_correlated_iff_inTime :
    ∃ s, QuietlyReachable payload s ∧
      ∃ call ∈ s.log, call.result = .ok (leBytes 60) ∧ OwnReply payload call (leBytes 60) := by
  have hinit : QuietlyReachable payload {} := .init
  have hclear := hinit.step (.clear (getTimerValue 0) rfl) fun _ _ => rfl
  have hwrite := hclear.step (.write rfl) nofun
  have hanswer := hwrite.step (.answer (timerSeconds 60) rfl) nofun
  have hread := hanswer.step (.read rfl rfl) nofun
  exact ⟨_, hread, _, List.mem_cons_self, rfl,
    (reply_correlated_iff payload).1 _ hread _ List.mem_cons_self _ rfl⟩

/-- The reply for one timer comes after the timeout and is taken for that of the other. -/
theorem late_reply_returned :
    ∃ s, Reachable payload s ∧ ∃ call ∈ s.log, ∃ resp,
      call.request = getTimerValue 1 ∧ call.result = .ok resp ∧ ¬OwnReply payload call resp := by
  have hinit : Reachable payload {} := .init
  have hclear := hinit.step (.clear (getTimerValue 0) rfl)
  have hwrite := hclear.step (.write rfl)
  have htimeout := hwrite.step (.timeout rfl rfl)
  have hclear' := htimeout.step (.clear (getTimerValue 1) rfl)
  have hwrite' := hclear'.step (.write rfl)
  have hanswer := hwrite'.step (.answer (timerSeconds 60) rfl)
  have hread := hanswer.step (.read rfl rfl)
  refine ⟨_, hread, _, List.mem_cons_self, leBytes 60, rfl, rfl, ?_⟩
  rintro ⟨message, hreply, -⟩
  cases hreply

end EcSerialLink
