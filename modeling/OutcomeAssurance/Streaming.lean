import OutcomeAssurance.ModelBackend
import OutcomeAssurance.Runs
import OutcomeAssurance.TraceChain

/-! # The token stream of one request

    `app/serving/streaming.py` with `prime_generation`: a generator that
    suspends while it waits for the backend, for the retry's pause or for
    `is_disconnected`, and at every event it yields.  A step is what it does
    from one suspension point to the next. -/

namespace Streaming

open ModelBackend TraceChain

/-- `RETRY_MAX_ATTEMPTS`. -/
def retryMaxAttempts : Nat := 3

inductive Status where
  | completed | timeout | backendError | cancelled
  deriving DecidableEq, Repr

def Status.label : Status → String
  | .completed => "completed"
  | .timeout => "timeout"
  | .backendError => "backend_error"
  | .cancelled => "cancelled"

/-- What a call is made with, and its events and records name. -/
structure GenerationRequest where
  requestId : String
  sessionId : String
  info : ModelInfo
  deriving Repr

/-! ## Events and effects -/

inductive SseEvent where
  | token (t : String)
  | error (requestId reason : String)
  | done (requestId : String) (info : ModelInfo) (tokensEmitted : Nat)
  deriving DecidableEq, Repr

def SseEvent.event : SseEvent → String
  | .token _ => "token"
  | .error .. => "error"
  | .done .. => "done"

/-- `json.dumps` of an object, its keys in the order given. -/
def dumpsObject (fields : List (String × Json)) : String :=
  "\x7b" ++ ", ".intercalate (fields.map fun p => quote p.1 ++ ": " ++ dumps p.2) ++ "\x7d"

/-- `_token_payload`, `_error_payload` and `_done_payload`. -/
def SseEvent.data : SseEvent → String
  | .token t => dumpsObject [("token", .str t)]
  | .error requestId reason =>
      dumpsObject [("request_id", .str requestId), ("reason", .str reason)]
  | .done requestId info tokensEmitted =>
      dumpsObject [
        ("request_id", .str requestId),
        ("model_name", .str info.modelName),
        ("model_version", .str info.modelVersion),
        ("checkpoint_id", .str info.checkpointId),
        ("tokens_emitted", .int tokensEmitted)]

/-- The records of `log_event`, with what each carries beyond the request. -/
inductive LogRecord where
  | generateTimeout (phase : String) (tokensEmitted : Option Nat)
  | generateBackendError (error : String)
  | generateMidStreamError (tokensEmitted : Nat) (error : String)
  | generateFinished (status : Status) (tokensEmitted : Nat) (modelVersion : String)
  deriving DecidableEq, Repr

/-- Counters and log records, in the order they are written. -/
inductive Effect where
  /-- `RETRIES_TOTAL`. -/
  | retried
  /-- `TOKENS_GENERATED_TOTAL`. -/
  | tokenGenerated
  /-- `ERRORS_TOTAL`. -/
  | errorCounted (reason : String)
  /-- `REQUESTS_TOTAL`. -/
  | requestCounted (status : Status)
  | logged (record : LogRecord)
  deriving DecidableEq, Repr

/-! ## The generator -/

/-- How a generator that was started ends. -/
inductive Ending where
  | returned
  /-- `is_disconnected` answered `True`. -/
  | disconnected
  /-- Cancelled at an await, or closed at a yield. -/
  | interrupted
  /-- An exception that nothing in the body catches. -/
  | raised
  deriving DecidableEq, Repr

/-- Where the generator is suspended. -/
inductive Pos where
  | created
  /-- Attempt `n` of the backend, before its first token. -/
  | opening (n : Nat)
  /-- The pause after attempt `n`. -/
  | backingOff (n : Nat)
  | tokenYield
  | fetching
  /-- `is_disconnected`, with the token fetched. -/
  | asking (t : String)
  | errorYield
  | doneYield
  | finished (how : Ending)
  /-- Closed before it was started: none of its code runs. -/
  | abandoned
  deriving DecidableEq, Repr

structure Stream where
  pos : Pos := .created
  status : Status := .completed
  tokensEmitted : Nat := 0
  events : List SseEvent := []
  /-- The attempts of the backend begun so far. -/
  attempts : Nat := 0
  effects : List Effect := []
  deriving Repr

/-- The call, before anything is asked of the generator. -/
def Stream.start : Stream := {}

/-- What a suspended generator is resumed with. -/
inductive Signal where
  /-- The consumer asks for the next event. -/
  | advance
  | token (t : String)
  /-- `StopAsyncIteration` of the backend. -/
  | exhausted
  | raises (fault : Fault)
  /-- The retry's pause is over. -/
  | slept
  /-- `is_disconnected` answers. -/
  | answer (disconnected : Bool)
  /-- The deadline has passed. -/
  | expired
  | cancelled
  | closed
  deriving DecidableEq, Repr

variable (req : GenerationRequest)

/-- A token is yielded, with the count it makes. -/
def Stream.sendToken (s : Stream) (count : Nat) (t : String) : Stream :=
  { s with
    pos := .tokenYield
    tokensEmitted := count
    events := s.events ++ [.token t]
    effects := s.effects ++ [.tokenGenerated] }

/-- What the four handlers have in common. -/
def Stream.erred (s : Stream) (status : Status) (label reason : String) (record : LogRecord) :
    Stream :=
  { s with
    pos := .errorYield
    status := status
    events := s.events ++ [.error req.requestId reason]
    effects := s.effects ++ [.errorCounted label, .logged record] }

def Stream.timedOut (s : Stream) (record : LogRecord) : Stream :=
  s.erred req .timeout "timeout" "TIMEOUT" record

def Stream.failed (s : Stream) (e : BackendError) (record : LogRecord) : Stream :=
  s.erred req .backendError e.kind.name "BACKEND_ERROR" record

/-- The `finally` clause. -/
def Stream.finish (s : Stream) (how : Ending) : Stream :=
  { s with
    pos := .finished how
    effects := s.effects ++ [.requestCounted s.status,
      .logged (.generateFinished s.status s.tokensEmitted req.info.modelVersion)] }

/-- What the first `try` makes of an exception. -/
def Stream.primeFault (s : Stream) : Fault → Stream
  | .timeout => s.timedOut req (.generateTimeout "prime" none)
  | .backend e => s.failed req e (.generateBackendError e.message)
  | .other _ => s.finish req .raised

/-- What the second `try` makes of an exception. -/
def Stream.streamFault (s : Stream) : Fault → Stream
  | .timeout => s.timedOut req (.generateTimeout "stream" (some s.tokensEmitted))
  | .backend e => s.failed req e (.generateMidStreamError s.tokensEmitted e.message)
  | .other _ => s.finish req .raised

/-- The retrying of `prime_generation`. -/
def Stream.attemptRaised (s : Stream) (n : Nat) : Fault → Stream
  | .backend e =>
      if e.kind = .transient ∧ n < retryMaxAttempts then
        { s with pos := .backingOff n, effects := s.effects ++ [.retried] }
      else s.primeFault req (.backend e)
  | fault => s.primeFault req fault

/-- One resumption; a signal that cannot reach the generator where it is
    suspended changes nothing. -/
def step (s : Stream) (sig : Signal) : Stream :=
  match s.pos, sig with
  | .created, .advance => { s with pos := .opening 1, attempts := 1 }
  | .created, .expired => s.primeFault req .timeout
  | .created, .cancelled => { s with pos := .abandoned }
  | .created, .closed => { s with pos := .abandoned }
  | .created, _ => s
  | .finished _, _ => s
  | .abandoned, _ => s
  -- `CancelledError` and `GeneratorExit` pass every handler
  | _, .cancelled => s.finish req .interrupted
  | _, .closed => s.finish req .interrupted
  | .opening _, .token t => s.sendToken 1 t
  | .opening n, .raises fault => s.attemptRaised req n fault
  -- leaves the first `try`, and the generator as a `RuntimeError`
  | .opening _, .exhausted => s.finish req .raised
  | .opening _, .expired => s.primeFault req .timeout
  | .backingOff n, .slept => { s with pos := .opening (n + 1), attempts := n + 1 }
  | .backingOff _, .expired => s.primeFault req .timeout
  | .tokenYield, .advance => { s with pos := .fetching }
  | .fetching, .token t => { s with pos := .asking t }
  | .fetching, .exhausted =>
      { s with
        pos := .doneYield
        events := s.events ++ [.done req.requestId req.info s.tokensEmitted] }
  | .fetching, .raises fault => s.streamFault req fault
  | .fetching, .expired => s.streamFault req .timeout
  | .asking t, .answer false => s.sendToken (s.tokensEmitted + 1) t
  | .asking _, .answer true => Stream.finish req { s with status := .cancelled } .disconnected
  | .asking _, .raises fault => s.streamFault req fault
  | .errorYield, .advance => s.finish req .returned
  | .doneYield, .advance => s.finish req .returned
  | _, _ => s

/-! ## What one resumption does -/

/-- Started, and not at its end yet. -/
def Pos.live : Pos → Bool
  | .created | .finished _ | .abandoned => false
  | _ => true

/-- Started and at its end. -/
def Pos.final : Pos → Bool
  | .finished _ => true
  | _ => false

def Pos.started : Pos → Bool
  | .created | .abandoned => false
  | _ => true

/-- Suspended at a `yield`, not at an `await`. -/
def Pos.yields : Pos → Bool
  | .tokenYield | .errorYield | .doneYield => true
  | _ => false

/-- Started, with no terminal event yielded yet. -/
def Pos.midway : Pos → Bool
  | .opening _ | .backingOff _ | .tokenYield | .fetching | .asking _ => true
  | _ => false

def Signal.interrupts : Signal → Bool
  | .cancelled | .closed => true
  | _ => false

/-- The signal is an exception that no handler is for: the backend ends before
    its first token, or something raises what is neither a timeout nor a
    backend error. -/
def escapes : Pos → Signal → Bool
  | .opening _, .exhausted => true
  | .opening _, .raises (.other _) => true
  | .fetching, .raises (.other _) => true
  | .asking _, .raises (.other _) => true
  | _, _ => false

/-- The record of the `finally` clause. -/
def LogRecord.final : LogRecord → Bool
  | .generateFinished .. => true
  | _ => false

/-- The resumptions, with what each finds and leaves. -/
inductive Stepped (s : Stream) : Signal → Stream → Prop where
  | idle (sig : Signal) : Stepped s sig s
  | abandoned {sig : Signal} (hpos : s.pos = .created) (hsig : sig.interrupts = true) :
      Stepped s sig { s with pos := .abandoned }
  | opened (hpos : s.pos = .created) :
      Stepped s .advance { s with pos := .opening 1, attempts := 1 }
  | retried {n : Nat} {e : BackendError} (hpos : s.pos = .opening n) :
      Stepped s (.raises (.backend e))
        { s with pos := .backingOff n, effects := s.effects ++ [.retried] }
  | reopened {n : Nat} (hpos : s.pos = .backingOff n) :
      Stepped s .slept { s with pos := .opening (n + 1), attempts := n + 1 }
  | sent {sig : Signal} {count : Nat} {t : String} (hmidway : s.pos.midway = true) :
      Stepped s sig (s.sendToken count t)
  | resumed (hpos : s.pos = .tokenYield) : Stepped s .advance { s with pos := .fetching }
  | fetched {t : String} (hpos : s.pos = .fetching) :
      Stepped s (.token t) { s with pos := .asking t }
  | exhausted (hpos : s.pos = .fetching) :
      Stepped s .exhausted
        { s with
          pos := .doneYield
          events := s.events ++ [.done req.requestId req.info s.tokensEmitted] }
  | timedOut {sig : Signal} {record : LogRecord}
      (hpos : s.pos = .created ∨ s.pos.midway = true) (hrecord : record.final = false) :
      Stepped s sig (s.timedOut req record)
  | failed {sig : Signal} {e : BackendError} {record : LogRecord}
      (hmidway : s.pos.midway = true) (hrecord : record.final = false) :
      Stepped s sig (s.failed req e record)
  | disconnected {t : String} (hpos : s.pos = .asking t) :
      Stepped s (.answer true) (Stream.finish req { s with status := .cancelled } .disconnected)
  | returned (hpos : s.pos = .errorYield ∨ s.pos = .doneYield) :
      Stepped s .advance (s.finish req .returned)
  | interrupted {sig : Signal} (hlive : s.pos.live = true) (hsig : sig.interrupts = true) :
      Stepped s sig (s.finish req .interrupted)
  | escaped {sig : Signal} (hescapes : escapes s.pos sig = true) :
      Stepped s sig (s.finish req .raised)

variable {req}

theorem stepped_primeFault {s : Stream} {n : Nat} (hpos : s.pos = .opening n) (fault : Fault) :
    Stepped req s (.raises fault) (s.primeFault req fault) := by
  have hmidway : s.pos.midway = true := by rw [hpos]; rfl
  cases fault with
  | timeout => exact .timedOut (.inr hmidway) rfl
  | backend e => exact .failed hmidway rfl
  | other name => exact .escaped (by rw [hpos]; rfl)

theorem stepped_attemptRaised {s : Stream} {n : Nat} (hpos : s.pos = .opening n)
    (fault : Fault) : Stepped req s (.raises fault) (s.attemptRaised req n fault) := by
  cases fault with
  | backend e =>
      rw [Stream.attemptRaised]
      by_cases hretry : e.kind = .transient ∧ n < retryMaxAttempts
      · rw [if_pos hretry]
        exact .retried hpos
      · rw [if_neg hretry]
        exact stepped_primeFault hpos (.backend e)
  | timeout => exact stepped_primeFault hpos .timeout
  | other name => exact stepped_primeFault hpos (.other name)

theorem stepped_streamFault {s : Stream} (hpos : s.pos = .fetching ∨ ∃ t, s.pos = .asking t)
    (fault : Fault) : Stepped req s (.raises fault) (s.streamFault req fault) := by
  have hmidway : s.pos.midway = true := by
    obtain hpos | ⟨t, hpos⟩ := hpos <;> rw [hpos] <;> rfl
  cases fault with
  | timeout => exact .timedOut (.inr hmidway) rfl
  | backend e => exact .failed hmidway rfl
  | other name =>
      refine .escaped ?_
      obtain hpos | ⟨t, hpos⟩ := hpos <;> rw [hpos] <;> rfl

/-- **THE CASE LIST OF ONE RESUMPTION.** -/
theorem stepped (s : Stream) (sig : Signal) : Stepped req s sig (step req s sig) := by
  have hlive : ∀ pos, s.pos = pos → pos.live = true → s.pos.live = true :=
    fun _ hpos hlive => by rw [hpos]; exact hlive
  have hmidway : ∀ pos, s.pos = pos → pos.midway = true → s.pos.midway = true :=
    fun _ hpos hmidway => by rw [hpos]; exact hmidway
  unfold step
  cases hpos : s.pos with
  | created =>
      cases sig with
      | advance => exact .opened hpos
      | expired => exact .timedOut (.inl hpos) rfl
      | cancelled => exact .abandoned hpos rfl
      | closed => exact .abandoned hpos rfl
      | _ => exact .idle _
  | opening n =>
      cases sig with
      | token t => exact .sent (hmidway _ hpos rfl)
      | raises fault => exact stepped_attemptRaised hpos fault
      | exhausted => exact .escaped (by rw [hpos]; rfl)
      | expired => exact .timedOut (.inr (hmidway _ hpos rfl)) rfl
      | cancelled => exact .interrupted (hlive _ hpos rfl) rfl
      | closed => exact .interrupted (hlive _ hpos rfl) rfl
      | _ => exact .idle _
  | backingOff n =>
      cases sig with
      | slept => exact .reopened hpos
      | expired => exact .timedOut (.inr (hmidway _ hpos rfl)) rfl
      | cancelled => exact .interrupted (hlive _ hpos rfl) rfl
      | closed => exact .interrupted (hlive _ hpos rfl) rfl
      | _ => exact .idle _
  | tokenYield =>
      cases sig with
      | advance => exact .resumed hpos
      | cancelled => exact .interrupted (hlive _ hpos rfl) rfl
      | closed => exact .interrupted (hlive _ hpos rfl) rfl
      | _ => exact .idle _
  | fetching =>
      cases sig with
      | token t => exact .fetched hpos
      | exhausted => exact .exhausted hpos
      | raises fault => exact stepped_streamFault (.inl hpos) fault
      | expired => exact .timedOut (.inr (hmidway _ hpos rfl)) rfl
      | cancelled => exact .interrupted (hlive _ hpos rfl) rfl
      | closed => exact .interrupted (hlive _ hpos rfl) rfl
      | _ => exact .idle _
  | asking t =>
      cases sig with
      | answer disconnected =>
          cases disconnected with
          | true => exact .disconnected hpos
          | false => exact .sent (hmidway _ hpos rfl)
      | raises fault => exact stepped_streamFault (.inr ⟨t, hpos⟩) fault
      | cancelled => exact .interrupted (hlive _ hpos rfl) rfl
      | closed => exact .interrupted (hlive _ hpos rfl) rfl
      | _ => exact .idle _
  | errorYield =>
      cases sig with
      | advance => exact .returned (.inl hpos)
      | cancelled => exact .interrupted (hlive _ hpos rfl) rfl
      | closed => exact .interrupted (hlive _ hpos rfl) rfl
      | _ => exact .idle _
  | doneYield =>
      cases sig with
      | advance => exact .returned (.inr hpos)
      | cancelled => exact .interrupted (hlive _ hpos rfl) rfl
      | closed => exact .interrupted (hlive _ hpos rfl) rfl
      | _ => exact .idle _
  | finished how => exact .idle _
  | abandoned => exact .idle _

/-- A generator at its end stays there. -/
theorem step_of_finished {s : Stream} {how : Ending} (hpos : s.pos = .finished how)
    (sig : Signal) : step req s sig = s := by
  unfold step
  rw [hpos]

theorem run_of_finished {s : Stream} {how : Ending} (hpos : s.pos = .finished how)
    (signals : List Signal) : Runs.run (step req) s signals = s := by
  induction signals with
  | nil => rfl
  | cons sig signals ih => rw [Runs.run_cons, step_of_finished hpos, ih]

/-- Whatever interrupts a generator that is at work ends it. -/
theorem step_of_interrupts {s : Stream} {sig : Signal} (hlive : s.pos.live = true)
    (hsig : sig.interrupts = true) : step req s sig = s.finish req .interrupted := by
  unfold step
  cases hpos : s.pos with
  | created | finished how | abandoned => rw [hpos] at hlive; cases hlive
  | opening | backingOff | tokenYield | fetching | asking | errorYield | doneYield =>
      cases sig with
      | cancelled | closed => rfl
      | _ => cases hsig

/-- An exception without a handler ends the generator. -/
theorem step_of_escapes {s : Stream} {sig : Signal} (h : escapes s.pos sig = true) :
    step req s sig = s.finish req .raised := by
  unfold step
  cases hpos : s.pos with
  | opening n =>
      rw [hpos] at h
      cases sig with
      | exhausted => rfl
      | raises fault =>
          cases fault with
          | other name => rfl
          | _ => cases h
      | _ => cases h
  | fetching | asking =>
      rw [hpos] at h
      cases sig with
      | raises fault =>
          cases fault with
          | other name => rfl
          | _ => cases h
      | _ => cases h
  | _ => rw [hpos] at h; cases h

end Streaming
