import OutcomeAssurance.RateLimiter
import OutcomeAssurance.SlotLimiter
import OutcomeAssurance.Streaming

/-! # The streaming endpoint

    `generate_stream` in `app/serving/router.py`: the rate limiter, a slot of
    the concurrency limiter, and the generator that holds the slot while the
    response is sent.  Any number of requests, in any order of their steps. -/

namespace StreamRouter

open ConditionQueue ModelBackend RateLimiter Runs SlotLimiter Streaming TraceChain

/-! ## Replies -/

/-- `_json_error`. -/
structure JsonError where
  statusCode : Nat
  errorCode : String
  message : String
  retryAfter : Option String := none
  deriving DecidableEq, Repr

def JsonError.content (e : JsonError) : String :=
  dumpsObject [("error_code", .str e.errorCode), ("message", .str e.message)]

/-- `int(x)`. -/
def truncate (x : ℚ) : Int := if 0 ≤ x then x.floor else x.ceil

def rateLimited (e : RateLimitExceeded) : JsonError where
  statusCode := 429
  errorCode := "RATE_LIMITED"
  message := e.message
  retryAfter := some (toString (max 1 (truncate e.retryAfterSeconds + 1)))

def serverBusy (e : BackpressureRejected) : JsonError where
  statusCode := 503
  errorCode := "SERVER_BUSY"
  message := e.message

def queueTimeout : JsonError where
  statusCode := 503
  errorCode := "QUEUE_TIMEOUT"
  message := "Timed out waiting for a free concurrency slot"

/-! ## Requests -/

/-- What a request brings, the backend's model and the clock included. -/
structure Submission where
  requestId : String
  sessionId : Option String
  reviewerId : String
  info : ModelInfo
  now : ℚ
  /-- The deadline is over before a slot is asked for. -/
  late : Bool := false

/-- `session_id or request_id`. -/
def Submission.request (b : Submission) : GenerationRequest where
  requestId := b.requestId
  sessionId :=
    match b.sessionId with
    | none => b.requestId
    | some id => if id = "" then b.requestId else id
  info := b.info

/-- Why a queued request is to stop waiting. -/
inductive Wait where
  | pending | expired | cancelled
  deriving DecidableEq, Repr

/-- The exceptions that leave the handler. -/
inductive Failure where
  /-- `ZeroDivisionError` of the rate limiter. -/
  | zeroDivision
  /-- `OverflowError`: the capacity is to be a `float`. -/
  | capacityOverflow
  /-- `OverflowError`: the infinite seconds of a refusal are to be an `int`. -/
  | retryOverflow
  deriving DecidableEq, Repr

/-- How far `_generate_and_release` has come. -/
inductive Body where
  /-- Its `finally` clause has not run. -/
  | holding
  /-- Its `finally` clause has run. -/
  | released
  /-- It was collected without having been started. -/
  | dropped
  deriving DecidableEq, Repr

/-- How far a request has come. -/
inductive Call where
  | absent
  | queued (req : GenerationRequest) (wait : Wait)
  | answered (e : JsonError)
  | raised (f : Failure)
  /-- The handler was cancelled while it waited. -/
  | cancelled
  /-- The response has been returned: its body, and the stream inside that. -/
  | streaming (req : GenerationRequest) (s : Stream) (body : Body)

structure Config where
  limits : Limits
  rateLimits : RateLimits

/-- `LIMITER`, `RATE_LIMITER`, the metrics and the requests. -/
structure Router (ι : Type) where
  serving : Serving ι := Serving.start
  buckets : Buckets := {}
  /-- `IN_FLIGHT`. -/
  inFlight : Int := 0
  /-- `RATE_LIMITED_TOTAL`. -/
  rateLimitedTotal : Nat := 0
  /-- The labels of `ERRORS_TOTAL`. -/
  errors : List String := []
  calls : ι → Call := fun _ => .absent

/-- No request yet. -/
def Router.start {ι : Type} : Router ι := {}

/-- What can happen to a request: it is submitted, its wait for a slot resumes,
    expires or is cancelled, its response body is resumed, or what is left of
    the response is collected. -/
inductive Event (ι : Type) where
  | submit (i : ι) (b : Submission)
  | resume (i : ι)
  | expire (i : ι)
  | cancel (i : ι)
  | drive (i : ι) (sig : Signal)
  | finalise (i : ι)

def Event.request {ι : Type} : Event ι → ι
  | .submit i _ => i
  | .resume i => i
  | .expire i => i
  | .cancel i => i
  | .drive i _ => i
  | .finalise i => i

variable {ι : Type} [DecidableEq ι]

def Router.set (r : Router ι) (i : ι) (call : Call) : Router ι :=
  { r with calls := fun j => if j = i then call else r.calls j }

/-- Where the wait for a slot leads. -/
def Router.progress (r : Router ι) (i : ι) (req : GenerationRequest) (wait : Wait)
    (p : ConcurrencyLimiter ι × Progress) : Router ι :=
  let r := { r with serving := r.serving.advance i p }
  match p.2, wait with
  | .entered, _ => Router.set { r with inFlight := r.inFlight + 1 } i
      (.streaming req .start .holding)
  | .waiting, _ => r.set i (.queued req wait)
  | .left, .expired =>
      Router.set { r with errors := r.errors ++ ["queue_timeout"] } i (.answered queueTimeout)
  | .left, _ => r.set i .cancelled

/-- `generate_stream`, up to the response or the wait for a slot. -/
def Router.submit (c : Config) (r : Router ι) (i : ι) (b : Submission) : Router ι :=
  let (verdict, buckets) := check c.rateLimits r.buckets b.reviewerId b.now
  let r := { r with buckets := buckets }
  match verdict with
  | .exceeded e =>
      let r := { r with rateLimitedTotal := r.rateLimitedTotal + 1 }
      -- `int` of an infinite quotient
      if BeyondFloat e.retryAfterSeconds then r.set i (.raised .retryOverflow)
      else r.set i (.answered (rateLimited e))
  | .zeroDivision => r.set i (.raised .zeroDivision)
  | .overflow => r.set i (.raised .capacityOverflow)
  | .admitted =>
      if b.late then
        Router.set { r with errors := r.errors ++ ["queue_timeout"] } i (.answered queueTimeout)
      else
        match r.serving.limiter.enter c.limits i with
        | .error e =>
            Router.set { r with errors := r.errors ++ ["backpressure"] } i
              (.answered (serverBusy e))
        | .ok p => r.progress i b.request .pending p

/-- The `finally` clause of `slot`. -/
def Router.leave (r : Router ι) (i : ι) : Router ι :=
  { r with serving := ⟨r.serving.limiter.release, r.serving.inside.erase i⟩ }

/-- The `finally` clause of `_generate_and_release`. -/
def Router.release (r : Router ι) (i : ι) : Router ι :=
  Router.leave { r with inFlight := r.inFlight - 1 } i

/-- The wait of a queued request is to end. -/
def Router.interrupt (r : Router ι) (i : ι) (req : GenerationRequest) (wait : Wait) : Router ι :=
  Router.set
    { r with serving := { r.serving with limiter := { r.serving.limiter with
        waiters := ConditionQueue.cancel i r.serving.limiter.waiters } } }
    i (.queued req wait)

/-- The response body is resumed, and what it is resumed with passed on to the
    stream inside it. -/
def Router.drive (r : Router ι) (i : ι) (req : GenerationRequest) (s : Stream) (sig : Signal) :
    Router ι :=
  if s.pos.yields && sig.interrupts then
    -- closed at its own `yield`: the stream inside is left suspended
    (r.set i (.streaming req s .released)).release i
  else
    let s' := Streaming.step req s sig
    if s'.pos.final then (r.set i (.streaming req s' .released)).release i
    else r.set i (.streaming req s' .holding)

/-- What is left of a response is collected. -/
def Router.finalise (r : Router ι) (i : ι) (req : GenerationRequest) (s : Stream) :
    Body → Router ι
  | .holding =>
      -- no code of a body that was not started runs, but `slot` was started
      if s.pos.started then r
      else (r.set i (.streaming req (Streaming.step req s .closed) .dropped)).leave i
  | .released => r.set i (.streaming req (Streaming.step req s .closed) .released)
  | .dropped => r

/-- One event; one that cannot happen changes nothing. -/
def step (c : Config) (r : Router ι) : Event ι → Router ι
  | .submit i b =>
      match r.calls i with
      | .absent => r.submit c i b
      | _ => r
  | .resume i =>
      match r.calls i, waiterOf i r.serving.limiter.waiters with
      | .queued req wait, some w =>
          if w.due then r.progress i req wait (r.serving.limiter.resume c.limits w) else r
      | _, _ => r
  | .expire i =>
      match r.calls i with
      | .queued req .pending => r.interrupt i req .expired
      | _ => r
  | .cancel i =>
      match r.calls i with
      | .queued req _ => r.interrupt i req .cancelled
      | _ => r
  | .drive i sig =>
      match r.calls i with
      | .streaming req s .holding => r.drive i req s sig
      | _ => r
  | .finalise i =>
      match r.calls i with
      | .streaming req s body => r.finalise i req s body
      | _ => r

/-! ## What can happen -/

/-- What a submission comes to at once. -/
inductive Submits (c : Config) (r : Router ι) (i : ι) (b : Submission) : Router ι → Prop where
  | retryOverflowed {e : RateLimitExceeded} {buckets : Buckets}
      (hcheck : check c.rateLimits r.buckets b.reviewerId b.now = (.exceeded e, buckets))
      (hinfinite : BeyondFloat e.retryAfterSeconds) :
      Submits c r i b (Router.set
        { r with buckets := buckets, rateLimitedTotal := r.rateLimitedTotal + 1 } i
        (.raised .retryOverflow))
  | rateLimited {e : RateLimitExceeded} {buckets : Buckets}
      (hcheck : check c.rateLimits r.buckets b.reviewerId b.now = (.exceeded e, buckets))
      (hfinite : ¬ BeyondFloat e.retryAfterSeconds) :
      Submits c r i b (Router.set
        { r with buckets := buckets, rateLimitedTotal := r.rateLimitedTotal + 1 } i
        (.answered (StreamRouter.rateLimited e)))
  | divided {buckets : Buckets}
      (hcheck : check c.rateLimits r.buckets b.reviewerId b.now = (.zeroDivision, buckets)) :
      Submits c r i b (Router.set { r with buckets := buckets } i (.raised .zeroDivision))
  | overflowed {buckets : Buckets}
      (hcheck : check c.rateLimits r.buckets b.reviewerId b.now = (.overflow, buckets)) :
      Submits c r i b (Router.set { r with buckets := buckets } i (.raised .capacityOverflow))
  | late {buckets : Buckets}
      (hcheck : check c.rateLimits r.buckets b.reviewerId b.now = (.admitted, buckets))
      (hlate : b.late = true) :
      Submits c r i b (Router.set
        { r with buckets := buckets, errors := r.errors ++ ["queue_timeout"] } i
        (.answered queueTimeout))
  | busy {e : BackpressureRejected} {buckets : Buckets}
      (hcheck : check c.rateLimits r.buckets b.reviewerId b.now = (.admitted, buckets))
      (hlate : b.late = false) (henter : r.serving.limiter.enter c.limits i = .error e) :
      Submits c r i b (Router.set
        { r with buckets := buckets, errors := r.errors ++ ["backpressure"] } i
        (.answered (serverBusy e)))
  /-- It has a slot, or waits for one. -/
  | looked {p : ConcurrencyLimiter ι × Progress} {buckets : Buckets}
      (hcheck : check c.rateLimits r.buckets b.reviewerId b.now = (.admitted, buckets))
      (hlate : b.late = false) (henter : r.serving.limiter.enter c.limits i = .ok p) :
      Submits c r i b (Router.progress { r with buckets := buckets } i b.request .pending p)

theorem submits (c : Config) (r : Router ι) (i : ι) (b : Submission) :
    Submits c r i b (r.submit c i b) := by
  rw [Router.submit]
  cases hcheck : check c.rateLimits r.buckets b.reviewerId b.now with
  | mk verdict buckets =>
      cases verdict with
      | exceeded e =>
          by_cases hinfinite : BeyondFloat e.retryAfterSeconds
          · simp only [if_pos hinfinite]
            exact .retryOverflowed hcheck hinfinite
          · simp only [if_neg hinfinite]
            exact .rateLimited hcheck hinfinite
      | zeroDivision => exact .divided hcheck
      | overflow => exact .overflowed hcheck
      | admitted =>
          cases hlate : b.late with
          | true => exact .late hcheck hlate
          | false =>
              simp only [Bool.false_eq_true, if_false]
              cases henter : r.serving.limiter.enter c.limits i with
              | error e => exact .busy hcheck hlate henter
              | ok p => exact .looked hcheck hlate henter

/-- An event finds its request where it can happen, or changes nothing. -/
inductive Occurs (c : Config) (r : Router ι) : Event ι → Router ι → Prop where
  | idle (e : Event ι) : Occurs c r e r
  | submit {i : ι} (hcall : r.calls i = .absent) (b : Submission) :
      Occurs c r (.submit i b) (r.submit c i b)
  | resume {i : ι} {req : GenerationRequest} {wait : Wait} {w : Waiter ι}
      (hcall : r.calls i = .queued req wait)
      (hw : waiterOf i r.serving.limiter.waiters = some w) (hdue : w.due = true) :
      Occurs c r (.resume i) (r.progress i req wait (r.serving.limiter.resume c.limits w))
  | expire {i : ι} {req : GenerationRequest} (hcall : r.calls i = .queued req .pending) :
      Occurs c r (.expire i) (r.interrupt i req .expired)
  | cancel {i : ι} {req : GenerationRequest} {wait : Wait}
      (hcall : r.calls i = .queued req wait) :
      Occurs c r (.cancel i) (r.interrupt i req .cancelled)
  | drive {i : ι} {req : GenerationRequest} {s : Stream}
      (hcall : r.calls i = .streaming req s .holding) (sig : Signal) :
      Occurs c r (.drive i sig) (r.drive i req s sig)
  | finalise {i : ι} {req : GenerationRequest} {s : Stream} {body : Body}
      (hcall : r.calls i = .streaming req s body) :
      Occurs c r (.finalise i) (r.finalise i req s body)

/-- **WHAT ONE EVENT DOES**: all that follows a request goes by these cases. -/
theorem occurs (c : Config) (r : Router ι) (e : Event ι) : Occurs c r e (step c r e) := by
  cases e with
  | submit i b =>
      rw [step]
      split
      · next hcall => exact .submit hcall b
      · exact .idle _
  | resume i =>
      rw [step]
      split
      · next req wait w hcall hw =>
          split
          · next hdue => exact .resume hcall hw hdue
          · exact .idle _
      · exact .idle _
  | expire i =>
      rw [step]
      split
      · next req hcall => exact .expire hcall
      · exact .idle _
  | cancel i =>
      rw [step]
      split
      · next req wait hcall => exact .cancel hcall
      · exact .idle _
  | drive i sig =>
      rw [step]
      split
      · next req s hcall => exact .drive hcall sig
      · exact .idle _
  | finalise i =>
      rw [step]
      split
      · next req s body hcall => exact .finalise hcall
      · exact .idle _

/-! ## What one event does to the slots -/

def slots (r : Router ι) : Int := r.serving.limiter.inFlight

/-- The body of a response. -/
def Call.body : Call → Option Body
  | .streaming _ _ body => some body
  | _ => none

def bodyOf (r : Router ι) (i : ι) : Option Body := (r.calls i).body

/-- The event collects a response whose body was not started. -/
def drops (r : Router ι) : Event ι → Bool
  | .finalise i =>
      match r.calls i with
      | .streaming _ s .holding => !s.pos.started
      | _ => false
  | _ => false

/-- The slots, the gauge and the bodies are as they were. -/
structure Keeps (r r' : Router ι) : Prop where
  slots_eq : slots r' = slots r
  gauge_eq : r'.inFlight = r.inFlight
  bodies : ∀ j, bodyOf r' j = bodyOf r j

/-- The body of one response comes to something else, and the slots and the
    gauge with it. -/
structure Shifts (r : Router ι) (i : ι) (before after : Option Body) (slot gauge : Int)
    (r' : Router ι) : Prop where
  before_eq : bodyOf r i = before
  slots_eq : slots r' = slots r + slot
  gauge_eq : r'.inFlight = r.inFlight + gauge
  bodies : ∀ j, bodyOf r' j = if j = i then after else bodyOf r j

/-- An event leaves the slots alone, takes one for a response, or gives the one
    of a response back: with the gauge, or without it where the body was not
    started. -/
inductive Moved (r : Router ι) (e : Event ι) (r' : Router ι) : Prop where
  | kept (h : Keeps r r')
  | taken (h : Shifts r e.request none (some .holding) 1 1 r')
  | released (h : Shifts r e.request (some .holding) (some .released) (-1) (-1) r')
  | dropped (hdrops : drops r e = true)
      (h : Shifts r e.request (some .holding) (some .dropped) (-1) 0 r')

omit [DecidableEq ι] in
theorem keeps_refl (r : Router ι) : Keeps r r := ⟨rfl, rfl, fun _ => rfl⟩

variable {c : Config} {r r' : Router ι} {i j : ι}

theorem bodyOf_set (r : Router ι) (i j : ι) (call : Call) :
    bodyOf (r.set i call) j = if j = i then call.body else bodyOf r j := by
  show (if j = i then call else r.calls j).body = _
  split <;> rfl

/-- A request comes to something else with the same body, or with none still. -/
theorem keeps_set {call : Call} (hslots : slots r' = slots r) (hgauge : r'.inFlight = r.inFlight)
    (hcalls : r'.calls = r.calls) (hcall : call.body = bodyOf r i) : Keeps r (r'.set i call) where
  slots_eq := hslots
  gauge_eq := hgauge
  bodies := by
    intro j
    rw [bodyOf_set, hcall]
    split
    · next hji => rw [hji]
    · rw [bodyOf, hcalls, bodyOf]

/-- Where the wait for a slot leads, for the slots. -/
theorem moved_progress {e : Event ι} (habsent : bodyOf r e.request = none)
    (hgauge : r'.inFlight = r.inFlight) (hcalls : r'.calls = r.calls) (req : GenerationRequest)
    (wait : Wait) {p : ConcurrencyLimiter ι × Progress}
    (hp : p.1.inFlight = slots r + p.2.slots) :
    Moved r e (r'.progress e.request req wait p) := by
  obtain ⟨limiter, progress⟩ := p
  cases progress with
  | entered =>
      refine .taken ⟨habsent, hp, congrArg (· + 1) hgauge, fun j => ?_⟩
      refine (bodyOf_set _ _ j _).trans ?_
      rw [bodyOf, bodyOf, hcalls]
      rfl
  | waiting =>
      have hslots : limiter.inFlight = slots r := hp.trans (Int.add_zero _)
      exact .kept (keeps_set hslots hgauge hcalls habsent.symm)
  | left =>
      have hslots : limiter.inFlight = slots r := hp.trans (Int.add_zero _)
      cases wait with
      | pending | expired | cancelled =>
          exact .kept (keeps_set hslots hgauge hcalls habsent.symm)

theorem moved_submit (habsent : bodyOf r i = none) (b : Submission) :
    Moved r (.submit i b) (r.submit c i b) := by
  have hsubmits := submits c r i b
  generalize r.submit c i b = r' at hsubmits
  cases hsubmits with
  | looked _ _ henter =>
      refine moved_progress (e := .submit i b) habsent ?_ ?_ b.request .pending
        (inFlight_enter c.limits henter)
      · rfl
      · rfl
  | _ => exact .kept (keeps_set rfl rfl rfl habsent.symm)

/-- A response body that comes to its end. -/
theorem shifts_release {req : GenerationRequest} {s : Stream} (s' : Stream)
    (hcall : r.calls i = .streaming req s .holding) :
    Shifts r i (some .holding) (some .released) (-1) (-1)
      ((r.set i (.streaming req s' .released)).release i) where
  before_eq := by rw [bodyOf, hcall]; rfl
  slots_eq := rfl
  gauge_eq := rfl
  bodies := fun j => bodyOf_set r i j _

/-- A response body that is resumed. -/
theorem moved_drive {req : GenerationRequest} {s : Stream}
    (hcall : r.calls i = .streaming req s .holding) (sig : Signal) :
    Moved r (.drive i sig) (r.drive i req s sig) := by
  rw [Router.drive]
  split
  · exact .released (shifts_release s hcall)
  · dsimp only
    split
    · exact .released (shifts_release _ hcall)
    · refine .kept (keeps_set rfl rfl rfl ?_)
      rw [bodyOf, hcall]
      rfl

/-- A response that is collected. -/
theorem moved_finalise {req : GenerationRequest} {s : Stream} {body : Body}
    (hcall : r.calls i = .streaming req s body) :
    Moved r (.finalise i) (r.finalise i req s body) := by
  have hbody : bodyOf r i = some body := by rw [bodyOf, hcall]; rfl
  cases body with
  | holding =>
      rw [Router.finalise]
      split
      · exact .kept (keeps_refl r)
      · next hunstarted =>
          refine .dropped ?_ ⟨hbody, rfl, (Int.add_zero _).symm, fun j => bodyOf_set r i j _⟩
          rw [drops, hcall]
          simpa using hunstarted
  | released => exact .kept (keeps_set rfl rfl rfl hbody.symm)
  | dropped => exact .kept (keeps_refl r)

/-- **THE CASES OF ONE EVENT.** -/
theorem moved (c : Config) (r : Router ι) (e : Event ι) : Moved r e (step c r e) := by
  have hoccurs := occurs c r e
  generalize step c r e = r' at hoccurs
  have hwaiting : ∀ {i : ι} {req : GenerationRequest} {wait : Wait},
      r.calls i = .queued req wait → bodyOf r i = none := by
    intro i req wait hcall
    rw [bodyOf, hcall]
    rfl
  cases hoccurs with
  | idle => exact .kept (keeps_refl r)
  | submit hcall b => exact moved_submit (by rw [bodyOf, hcall]; rfl) b
  | @resume i req wait w hcall hw hdue =>
      exact moved_progress (e := .resume i) (hwaiting hcall) rfl rfl req wait
        (inFlight_resume c.limits r.serving.limiter w)
  | expire hcall => exact .kept (keeps_set rfl rfl rfl (hwaiting hcall).symm)
  | cancel hcall => exact .kept (keeps_set rfl rfl rfl (hwaiting hcall).symm)
  | drive hcall sig => exact moved_drive hcall sig
  | finalise hcall => exact moved_finalise hcall

/-! ## What is given back -/

/-- The slot of the response has been given back. -/
def slotBack : Option Body → Bool
  | some .released | some .dropped => true
  | _ => false

/-- The gauge has been lowered for the response. -/
def gaugeBack : Option Body → Bool
  | some .released => true
  | _ => false

/-- One of the two counters, with when a response is no longer in it. -/
def Counter (f : Router ι → Int) (back : Option Body → Bool) : Prop :=
  f = slots ∧ back = slotBack ∨ f = Router.inFlight ∧ back = gaugeBack

/-- **EACH EVENT** of a request lowers a counter by 1 when it takes its response
    out of it, and by nothing otherwise. -/
theorem balance_step {f : Router ι → Int} {back : Option Body → Bool} (hf : Counter f back)
    (c : Config) (i : ι) (r : Router ι) (e : Event ι) :
    (if e.request = i then (f r - f (step c r e)).toNat else 0) + (back (bodyOf r i)).toNat
      = (back (bodyOf (step c r e) i)).toNat := by
  have hmoved := moved c r e
  generalize step c r e = r' at hmoved
  -- a shift of the counter, and of the request's own body
  have hshift : ∀ {before after : Option Body} {slot gauge : Int},
      Shifts r e.request before after slot gauge r' →
      (f r - f r').toNat + (back before).toNat = (back after).toNat →
      (if e.request = i then (f r - f r').toNat else 0) + (back (bodyOf r i)).toNat
        = (back (bodyOf r' i)).toNat := by
    intro before after slot gauge h hbalance
    rw [h.bodies]
    by_cases hi : e.request = i
    · subst hi
      rw [if_pos rfl, if_pos rfl, h.before_eq]
      exact hbalance
    · rw [if_neg hi, if_neg (Ne.symm hi), Nat.zero_add]
  cases hmoved with
  | kept h =>
      have hfall : (f r - f r').toNat = 0 := by
        obtain ⟨rfl, -⟩ | ⟨rfl, -⟩ := hf
        · rw [h.slots_eq, Int.sub_self, Int.toNat_zero]
        · rw [h.gauge_eq, Int.sub_self, Int.toNat_zero]
      rw [hfall, ite_self, Nat.zero_add, h.bodies]
  | taken h =>
      refine hshift h ?_
      obtain ⟨rfl, rfl⟩ | ⟨rfl, rfl⟩ := hf
      · rw [h.slots_eq, show slots r - (slots r + 1) = -1 by omega]
        rfl
      · rw [h.gauge_eq, show r.inFlight - (r.inFlight + 1) = -1 by omega]
        rfl
  | released h =>
      refine hshift h ?_
      obtain ⟨rfl, rfl⟩ | ⟨rfl, rfl⟩ := hf
      · rw [h.slots_eq, show slots r - (slots r + -1) = 1 by omega]
        rfl
      · rw [h.gauge_eq, show r.inFlight - (r.inFlight + -1) = 1 by omega]
        rfl
  | dropped hdrops h =>
      refine hshift h ?_
      obtain ⟨rfl, rfl⟩ | ⟨rfl, rfl⟩ := hf
      · rw [h.slots_eq, show slots r - (slots r + -1) = 1 by omega]
        rfl
      · rw [h.gauge_eq, show r.inFlight - (r.inFlight + 0) = 0 by omega]
        rfl

/-- How often a counter is lowered by the events of request `i`. -/
theorem falls_eq_back {f : Router ι → Int} {back : Option Body → Bool} (hf : Counter f back)
    (c : Config) (i : ι) (events : List (Event ι)) :
    falls (step c) (fun e => e.request = i) f Router.start events
      = (back (bodyOf (run (step c) Router.start events) i)).toNat := by
  have hbalance := falls_add (g := fun r => (back (bodyOf r i)).toNat) (balance_step hf c i)
    Router.start events
  have hstart : (back (bodyOf (Router.start : Router ι) i)).toNat = 0 := by
    obtain ⟨-, rfl⟩ | ⟨-, rfl⟩ := hf <;> rfl
  rw [hstart] at hbalance
  exact hbalance

/-! ## Dropped responses -/

/-- The response was collected without its body having been started. -/
def Dropped (r : Router ι) (i : ι) : Prop := bodyOf r i = some .dropped

/-- The request got a response, and that is over: its body has come to its end,
    or was collected. -/
def Ended (r : Router ι) (i : ι) : Prop := bodyOf r i = some .released ∨ Dropped r i

instance (r : Router ι) (i : ι) : Decidable (Dropped r i) := inferInstanceAs (Decidable (_ = _))

instance (r : Router ι) (i : ι) : Decidable (Ended r i) := inferInstanceAs (Decidable (_ ∨ _))

omit [DecidableEq ι] in
theorem not_dropped_start (i : ι) : ¬ Dropped (Router.start : Router ι) i := by
  intro h
  cases h

theorem dropped_step (h : Dropped r i) (e : Event ι) : Dropped (step c r e) i := by
  have hmoved := moved c r e
  generalize step c r e = r' at hmoved
  have hother : ∀ {before after : Option Body} {slot gauge : Int},
      Shifts r e.request before after slot gauge r' → before ≠ some .dropped → Dropped r' i := by
    intro before after slot gauge hshifts hbefore
    have hne : i ≠ e.request := by
      rintro rfl
      exact hbefore (hshifts.before_eq.symm.trans h)
    rw [Dropped, hshifts.bodies, if_neg hne]
    exact h
  cases hmoved with
  | kept hkeeps => exact (hkeeps.bodies i).trans h
  | taken hshifts => exact hother hshifts fun hs => by cases hs
  | released hshifts => exact hother hshifts fun hs => by cases hs
  | dropped hdrops hshifts => exact hother hshifts fun hs => by cases hs

/-- **AN EVENT THAT DROPS NOTHING** leaves nothing dropped. -/
theorem not_dropped_step (h : ∀ i, ¬ Dropped r i) {e : Event ι} (he : drops r e = false) (i : ι) :
    ¬ Dropped (step c r e) i := by
  have hmoved := moved c r e
  generalize step c r e = r' at hmoved
  have hother : ∀ {before after : Option Body} {slot gauge : Int},
      Shifts r e.request before after slot gauge r' → after ≠ some .dropped → ¬ Dropped r' i := by
    intro before after slot gauge hshifts hafter hdropped
    rw [Dropped, hshifts.bodies] at hdropped
    split at hdropped
    · exact hafter hdropped
    · exact h i hdropped
  cases hmoved with
  | kept hkeeps => exact fun hdropped => h i ((hkeeps.bodies i).symm.trans hdropped)
  | taken hshifts => exact hother hshifts fun hs => by cases hs
  | released hshifts => exact hother hshifts fun hs => by cases hs
  | dropped hdrops => exact absurd (he.symm.trans hdrops) Bool.false_ne_true

theorem dropped_of_drops {e : Event ι} (he : drops r e = true) : ∃ i, Dropped (step c r e) i := by
  cases e with
  | finalise i =>
      rw [drops] at he
      split at he
      · next req s hcall =>
          refine ⟨i, ?_⟩
          have hunstarted : s.pos.started = false := by simpa using he
          rw [step, Dropped, hcall]
          show bodyOf (if _ then _ else _) i = _
          rw [hunstarted, if_neg Bool.false_ne_true]
          exact (bodyOf_set r i i _).trans (if_pos rfl)
      · cases he
  | _ => cases he

/-- A response is dropped in a run exactly when some event drops it. -/
theorem exists_dropped_iff (c : Config) (events : List (Event ι)) :
    (∀ i, ¬ Dropped (run (step c) Router.start events) i) ↔
      Along (step c) (fun r e => drops r e = false) Router.start events := by
  constructor
  · intro hnone
    -- the first event that drops a response leaves it dropped for ever
    by_contra hnot
    obtain ⟨pre, e, post, rfl, -, hbroken⟩ := exists_first_break hnot
    obtain ⟨i, hi⟩ := dropped_of_drops (c := c) (Bool.eq_true_of_not_eq_false hbroken)
    refine hnone i ?_
    rw [run_append, run_cons]
    exact run_invariant (I := fun r => Dropped r i) (fun _ e h => dropped_step h e) hi post
  · exact run_invariant_along (I := fun r => ∀ i, ¬ Dropped r i)
      (fun _ _ h he => not_dropped_step h he) not_dropped_start

/-! ## Slots are given back once -/

/-- **EVERY SLOT COMES BACK ONCE**: whatever ends a response lowers the limiter's
    count by exactly 1 in all, also where the body was never started. -/
theorem slot_back_once (c : Config) (events : List (Event ι)) (i : ι)
    (h : Ended (run (step c) Router.start events) i) :
    falls (step c) (fun e => e.request = i) slots Router.start events = 1 := by
  rw [falls_eq_back (.inl ⟨rfl, rfl⟩)]
  rcases h with hreleased | hdropped
  · rw [hreleased]
    rfl
  · rw [hdropped]
    rfl

/-- **ONCE EACH**: whatever happens to any number of requests, each that got a
    response which is over lowered the limiter's count and the gauge by exactly
    1 in all, if and only if no response is collected before its body is
    started. -/
theorem released_once_iff (c : Config) (events : List (Event ι)) :
    (∀ i, Ended (run (step c) Router.start events) i →
      falls (step c) (fun e => e.request = i) slots Router.start events = 1 ∧
      falls (step c) (fun e => e.request = i) Router.inFlight Router.start events = 1) ↔
    Along (step c) (fun r e => drops r e = false) Router.start events := by
  rw [← exists_dropped_iff]
  constructor
  · -- a dropped response has left the gauge as it was
    rintro hall i hdropped
    have honce := (hall i (.inr hdropped)).2
    rw [falls_eq_back (.inr ⟨rfl, rfl⟩), hdropped] at honce
    cases honce
  · intro hnone i hended
    refine ⟨slot_back_once c events i hended, ?_⟩
    rw [falls_eq_back (.inr ⟨rfl, rfl⟩), hended.resolve_right (hnone i)]
    rfl

/-- A response that is collected before its body is started gives its slot
    back, and stays in the gauge. -/
theorem dropped_keeps_gauge :
    let c : Config := ⟨⟨20, 20⟩, { capacity := 20, refillRate := 5 }⟩
    let b : Submission := ⟨"REQ-1", none, "alice", ⟨"m", "v1", "c"⟩, 0, false⟩
    let events : List (Event Nat) := [.submit 0 b, .finalise 0]
    Ended (run (step c) Router.start events) 0 ∧
      falls (step c) (fun e => e.request = 0) slots Router.start events = 1 ∧
      falls (step c) (fun e => e.request = 0) Router.inFlight Router.start events = 0 ∧
      Router.inFlight (run (step c) Router.start events) = 1 := by
  decide +kernel

end StreamRouter
