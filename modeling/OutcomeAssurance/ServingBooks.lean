import Mathlib.Algebra.BigOperators.Group.Finset.Piecewise
import OutcomeAssurance.Ledger
import OutcomeAssurance.RouterCalls

/-! # The books of the serving slice

    What `/metrics` shows after any interleaving of requests: each counter of
    `app/serving/metrics.py` agrees with what the requests were answered and
    sent, one by one. -/

namespace ServingBooks

open ConditionQueue Ledger ModelBackend RouterCalls Runs Streaming StreamRouter
open RateLimiter hiding Call step
open SlotLimiter hiding Event step

/-! ## One stream -/

/-- A `TOKENS_GENERATED_TOTAL` increment. -/
def countsToken : Effect → Bool
  | .tokenGenerated => true
  | _ => false

/-- An `ERRORS_TOTAL` increment. -/
def countsError : Effect → Bool
  | .errorCounted _ => true
  | _ => false

/-- A `REQUESTS_TOTAL` increment. -/
def countsRequest : Effect → Bool
  | .requestCounted _ => true
  | _ => false

def isToken : SseEvent → Bool
  | .token _ => true
  | _ => false

def isError : SseEvent → Bool
  | .error .. => true
  | _ => false

/-- A stream has counted the events it yielded, and itself once it is at its end. -/
structure Recorded (s : Stream) : Prop where
  tokens : s.effects.countP countsToken = s.events.countP isToken
  errors : s.effects.countP countsError = s.events.countP isError
  requests : s.effects.countP countsRequest = s.pos.final.toNat

variable {req : GenerationRequest} {s : Stream}

theorem recorded_start : Recorded Stream.start := ⟨rfl, rfl, rfl⟩

/-- What a stream that goes on yields and counts next. -/
theorem Recorded.add (h : Recorded s) (hfinal : s.pos.final = false) {s' : Stream}
    {events : List SseEvent} {effects : List Effect} (hevents : s'.events = s.events ++ events)
    (heffects : s'.effects = s.effects ++ effects)
    (htokens : effects.countP countsToken = events.countP isToken)
    (herrors : effects.countP countsError = events.countP isError)
    (hrequests : effects.countP countsRequest = s'.pos.final.toNat) : Recorded s' where
  tokens := by rw [hevents, heffects, List.countP_append, List.countP_append, h.tokens, htokens]
  errors := by rw [hevents, heffects, List.countP_append, List.countP_append, h.errors, herrors]
  requests := by
    rw [heffects, List.countP_append, h.requests, hfinal, hrequests]
    exact Nat.zero_add _

/-- A stream that goes on without yielding or counting anything. -/
theorem Recorded.goOn (h : Recorded s) (hfinal : s.pos.final = false) {s' : Stream}
    (hevents : s'.events = s.events) (heffects : s'.effects = s.effects)
    (hpos : s'.pos.final = false) : Recorded s' :=
  h.add hfinal (hevents.trans (List.append_nil _).symm) (heffects.trans (List.append_nil _).symm)
    rfl rfl (by rw [hpos]; rfl)

theorem Recorded.finish (h : Recorded s) (hfinal : s.pos.final = false) (how : Ending) :
    Recorded (s.finish req how) :=
  h.add hfinal (List.append_nil _).symm rfl rfl rfl rfl

theorem Recorded.erred (h : Recorded s) (hfinal : s.pos.final = false) (status : Status)
    (label reason : String) (record : LogRecord) :
    Recorded (s.erred req status label reason record) :=
  h.add hfinal rfl rfl rfl rfl rfl

theorem not_final_of_midway {pos : Pos} (h : pos.midway = true) : pos.final = false := by
  cases pos with
  | finished how => cases h
  | _ => rfl

theorem not_final_of_live {pos : Pos} (h : pos.live = true) : pos.final = false := by
  cases pos with
  | finished how => cases h
  | _ => rfl

theorem not_final_of_escapes {pos : Pos} {sig : Signal} (h : escapes pos sig = true) :
    pos.final = false := by
  cases pos with
  | finished how => cases h
  | _ => rfl

/-- **EACH RESUMPTION** counts what it yields. -/
theorem recorded_step (h : Recorded s) (sig : Signal) : Recorded (Streaming.step req s sig) := by
  have hstepped : Stepped req s sig (Streaming.step req s sig) := stepped s sig
  have hat : ∀ {pos : Pos}, s.pos = pos → pos.final = false → s.pos.final = false :=
    fun hpos hfinal => by rw [hpos]; exact hfinal
  generalize Streaming.step req s sig = s' at hstepped
  cases hstepped with
  | idle => exact h
  | abandoned hpos => exact h.goOn (hat hpos rfl) rfl rfl rfl
  | opened hpos => exact h.goOn (hat hpos rfl) rfl rfl rfl
  | retried hpos => exact h.add (hat hpos rfl) (List.append_nil _).symm rfl rfl rfl rfl
  | reopened hpos => exact h.goOn (hat hpos rfl) rfl rfl rfl
  | sent hmidway => exact h.add (not_final_of_midway hmidway) rfl rfl rfl rfl rfl
  | resumed hpos => exact h.goOn (hat hpos rfl) rfl rfl rfl
  | fetched hpos => exact h.goOn (hat hpos rfl) rfl rfl rfl
  | exhausted hpos => exact h.add (hat hpos rfl) rfl (List.append_nil _).symm rfl rfl rfl
  | timedOut hpos =>
      refine h.erred ?_ _ _ _ _
      rcases hpos with hpos | hmidway
      · exact hat hpos rfl
      · exact not_final_of_midway hmidway
  | failed hmidway => exact h.erred (not_final_of_midway hmidway) _ _ _ _
  | disconnected hpos =>
      have hstatus : Recorded { s with status := .cancelled } := ⟨h.tokens, h.errors, h.requests⟩
      exact hstatus.finish (hat hpos rfl) _
  | returned hpos =>
      refine h.finish ?_ _
      rcases hpos with hpos | hpos <;> exact hat hpos rfl
  | interrupted hlive => exact h.finish (not_final_of_live hlive) _
  | escaped hescapes => exact h.finish (not_final_of_escapes hescapes) _

/-! ## The counters of the router -/

inductive Account where
  /-- `RATE_LIMITED_TOTAL`. -/
  | rateLimited
  /-- `ERRORS_TOTAL` with the reason `queue_timeout`. -/
  | queueTimeout
  /-- `ERRORS_TOTAL` with the reason `backpressure`. -/
  | backpressure
  /-- `IN_FLIGHT`. -/
  | inFlight
  deriving DecidableEq, Repr

variable {ι : Type} [DecidableEq ι]

def counter (r : Router ι) : Account → Int
  | .rateLimited => r.rateLimitedTotal
  | .queueTimeout => r.errors.count "queue_timeout"
  | .backpressure => r.errors.count "backpressure"
  | .inFlight => r.inFlight

/-- What a request adds to a counter: by the error it was answered with, or by
    a response whose body has not come to its end. -/
def entryOf (call : Call) (account : Account) : Int :=
  match call, account with
  | .answered e, .rateLimited => (e.errorCode == "RATE_LIMITED").toNat
  -- counted before the header of the refusal raises
  | .raised .retryOverflow, .rateLimited => 1
  | .answered e, .queueTimeout => (e.errorCode == "QUEUE_TIMEOUT").toNat
  | .answered e, .backpressure => (e.errorCode == "SERVER_BUSY").toNat
  | .streaming _ _ .released, .inFlight => 0
  | .streaming _ _ _, .inFlight => 1
  | _, _ => 0

def entry (r : Router ι) (i : ι) : Account → Int := entryOf (r.calls i)

variable {c : Config} {r r' : Router ι} {i : ι}

/-- A request comes to something else, and the counters with it. -/
theorem posts_set {call : Call} (hcalls : r'.calls = r.calls)
    (hposted : ∀ k, counter r' k - counter r k = entryOf call k - entry r i k) :
    Posts counter entry i r (r'.set i call) where
  others := by
    intro j hj
    show entryOf (if j = i then call else r'.calls j) = entryOf (r.calls j)
    rw [if_neg hj, hcalls]
  posted := by
    intro k
    have hcounter : counter (r'.set i call) k = counter r' k := by cases k <;> rfl
    have hentry : entry (r'.set i call) i k = entryOf call k := by
      show entryOf (if i = i then call else r'.calls i) k = _
      rw [if_pos rfl]
    rw [hcounter, hentry]
    exact hposted k

/-- A request without an entry comes to something else. -/
theorem posts_new {call : Call} (hcalls : r'.calls = r.calls) (hnone : ∀ k, entry r i k = 0)
    (hposted : ∀ k, counter r' k = counter r k + entryOf call k) :
    Posts counter entry i r (r'.set i call) :=
  posts_set hcalls fun k => by rw [hposted k, hnone k]; omega

/-- A request is answered with an error that `ERRORS_TOTAL` counts. -/
theorem posts_error {e : JsonError} {label : String} (hcalls : r'.calls = r.calls)
    (hnone : ∀ k, entry r i k = 0) (hcounter : ∀ k, counter r' k = counter r k)
    (hlabel : (e, label) = (queueTimeout, "queue_timeout") ∨
      e.errorCode = "SERVER_BUSY" ∧ label = "backpressure") :
    Posts counter entry i r
      (Router.set { r' with errors := r'.errors ++ [label] } i (.answered e)) := by
  refine posts_new hcalls hnone fun k => ?_
  rw [← hcounter k]
  cases k with
  | queueTimeout =>
      show ((r'.errors ++ [label]).count "queue_timeout" : Int) =
        r'.errors.count "queue_timeout" + (e.errorCode == "QUEUE_TIMEOUT").toNat
      rw [List.count_append]
      rcases hlabel with heq | ⟨hcode, rfl⟩
      · obtain ⟨rfl, rfl⟩ := Prod.mk.inj heq
        rfl
      · rw [hcode]
        rfl
  | backpressure =>
      show ((r'.errors ++ [label]).count "backpressure" : Int) =
        r'.errors.count "backpressure" + (e.errorCode == "SERVER_BUSY").toNat
      rw [List.count_append]
      rcases hlabel with heq | ⟨hcode, rfl⟩
      · obtain ⟨rfl, rfl⟩ := Prod.mk.inj heq
        rfl
      · rw [hcode]
        rfl
  | rateLimited =>
      show (r'.rateLimitedTotal : Int) = r'.rateLimitedTotal + (e.errorCode == "RATE_LIMITED").toNat
      rcases hlabel with heq | ⟨hcode, -⟩
      · obtain ⟨rfl, -⟩ := Prod.mk.inj heq
        rfl
      · rw [hcode]
        rfl
  | inFlight => exact (Int.add_zero _).symm

/-- Where the wait for a slot leads, for the counters. -/
theorem posts_progress (hcalls : r'.calls = r.calls) (hnone : ∀ k, entry r i k = 0)
    (hcounter : ∀ k, counter r' k = counter r k) (req : GenerationRequest) (wait : Wait)
    (p : ConcurrencyLimiter ι × Progress) :
    Posts counter entry i r (r'.progress i req wait p) := by
  obtain ⟨limiter, progress⟩ := p
  cases progress with
  | entered =>
      refine posts_new hcalls hnone fun k => ?_
      rw [← hcounter k]
      cases k with
      | inFlight => rfl
      | rateLimited | queueTimeout | backpressure => exact (Int.add_zero _).symm
  | waiting =>
      refine posts_new hcalls hnone fun k => ?_
      rw [← hcounter k]
      exact (Int.add_zero _).symm
  | left =>
      cases wait with
      | pending | cancelled =>
          refine posts_new hcalls hnone fun k => ?_
          rw [← hcounter k]
          exact (Int.add_zero _).symm
      | expired => exact posts_error hcalls hnone hcounter (.inl rfl)

theorem posts_submit (hnone : ∀ k, entry r i k = 0) (b : Submission) :
    Posts counter entry i r (r.submit c i b) := by
  have hcounter : ∀ (buckets : Buckets) (k : Account),
      counter { r with buckets := buckets } k = counter r k := fun _ _ => rfl
  have hsubmits := submits c r i b
  generalize r.submit c i b = r' at hsubmits
  cases hsubmits with
  | retryOverflowed | rateLimited =>
      refine posts_new rfl hnone fun k => ?_
      cases k with
      | rateLimited => rfl
      | queueTimeout | backpressure | inFlight => exact (Int.add_zero _).symm
  | divided | overflowed => exact posts_new rfl hnone fun k => (Int.add_zero _).symm
  | @late buckets _ _ => exact posts_error (by rfl) hnone (hcounter buckets) (.inl rfl)
  | @busy e buckets _ _ _ =>
      have hcode : (serverBusy e).errorCode = "SERVER_BUSY" := rfl
      exact posts_error (by rfl) hnone (hcounter buckets) (.inr ⟨hcode, rfl⟩)
  | @looked p _ _ _ _ =>
      refine posts_progress ?_ hnone ?_ b.request .pending p
      · rfl
      · exact fun _ => rfl

/-- A response goes on with its body in the gauge as it was. -/
theorem posts_goOn {body : Body} (s' : Stream) (hcall : r.calls i = .streaming req s body) :
    Posts counter entry i r (r.set i (.streaming req s' body)) := by
  refine posts_set rfl fun k => ?_
  rw [entry, hcall]
  cases body <;> cases k <;> exact Int.sub_self _

/-- A response body comes to its end, and leaves the gauge. -/
theorem posts_release (s' : Stream) (hcall : r.calls i = .streaming req s .holding) :
    Posts counter entry i r ((r.set i (.streaming req s' .released)).release i) := by
  show Posts counter entry i r ((r.release i).set i _)
  refine posts_set rfl fun k => ?_
  rw [entry, hcall]
  cases k with
  | inFlight =>
      show r.inFlight - 1 - r.inFlight = 0 - 1
      omega
  | rateLimited | queueTimeout | backpressure => exact Int.sub_self _

/-- A response is collected; one whose body was not started stays in the gauge. -/
theorem posts_finalise {body : Body} (hcall : r.calls i = .streaming req s body) :
    Posts counter entry i r (r.finalise i req s body) := by
  cases body with
  | holding =>
      rw [Router.finalise]
      split
      · exact posts_refl
      · show Posts counter entry i r ((r.leave i).set i _)
        -- the slot is given back, and the gauge stays as it is
        refine posts_set rfl fun k => ?_
        rw [entry, hcall]
        cases k <;> exact Int.sub_self _
  | released => exact posts_goOn _ hcall
  | dropped => exact posts_refl

/-- **EVERY EVENT POSTS** what it does for its request. -/
theorem posts (c : Config) (r : Router ι) (e : Event ι) :
    Posts counter entry e.request r (StreamRouter.step c r e) := by
  have hnone : ∀ {i : ι}, (r.calls i = .absent ∨ ∃ req wait, r.calls i = .queued req wait) →
      ∀ k, entry r i k = 0 := by
    intro i hcall k
    rcases hcall with hcall | ⟨req, wait, hcall⟩
    · rw [entry, hcall]
      rfl
    · rw [entry, hcall]
      rfl
  have hoccurs := occurs c r e
  generalize StreamRouter.step c r e = r' at hoccurs
  cases hoccurs with
  | idle => exact posts_refl
  | submit hcall b => exact posts_submit (hnone (.inl hcall)) b
  | resume hcall hw hdue =>
      exact posts_progress rfl (hnone (.inr ⟨_, _, hcall⟩)) (fun _ => rfl) _ _ _
  | expire hcall => exact posts_new rfl (hnone (.inr ⟨_, _, hcall⟩)) fun k => (Int.add_zero _).symm
  | cancel hcall => exact posts_new rfl (hnone (.inr ⟨_, _, hcall⟩)) fun k => (Int.add_zero _).symm
  | drive hcall sig =>
      rw [Router.drive]
      split
      · exact posts_release _ hcall
      · dsimp only
        split
        · exact posts_release _ hcall
        · exact posts_goOn _ hcall
  | finalise hcall => exact posts_finalise hcall

/-! ## The streams -/

/-- **EACH EVENT** leaves every stream with its own books in order. -/
theorem recorded_event (h : ∀ j, Recorded (stream r j)) (e : Event ι) (j : ι) :
    Recorded (stream (StreamRouter.step c r e) j) := by
  obtain ⟨call, hbecomes, hcalls⟩ := turns c r e
  rw [stream, hcalls]
  split
  · cases hbecomes with
    | same => exact h e.request
    | @ended call hended =>
        cases call with
        | absent | answered | raised | cancelled => exact recorded_start
        | queued | streaming => cases hended
    | waits => exact recorded_start
    | opens => exact recorded_start
    | @driven req s body body' sig hbefore =>
        have hstream := h e.request
        rw [stream, hbefore] at hstream
        exact recorded_step hstream sig
    | @left req s body body' hbefore =>
        have hstream := h e.request
        rw [stream, hbefore] at hstream
        exact hstream
  · exact h j

/-! ## All requests together -/

/-- The requests of the events. -/
def requests (events : List (Event ι)) : Finset ι := (events.map Event.request).toFinset

/-- The increments of the streams' counters, over all requests. -/
def increments (ids : Finset ι) (counts : Effect → Bool) (r : Router ι) : Nat :=
  ∑ i ∈ ids, (stream r i).effects.countP counts

/-- **THE METRICS ARE EXACT**: after any interleaving of requests, each counter of
    the router is the number of requests that were answered so, the gauge the
    number of responses whose body has not come to its end; and the streams have
    counted as many tokens, errors and requests as they yielded tokens, errors
    and came to their own end, which may be later than that of the body. -/
theorem metrics_exact (c : Config) (events : List (Event ι)) :
    let r := run (StreamRouter.step c) Router.start events
    let ids := requests events
    Balanced counter entry ids r ∧
      increments ids countsToken r = ∑ i ∈ ids, (stream r i).events.countP isToken ∧
      increments ids countsError r = ∑ i ∈ ids, (stream r i).events.countP isError ∧
      increments ids countsRequest r =
        (ids.filter fun i => (stream r i).pos.final = true).card := by
  intro r ids
  have hrecorded : ∀ i, Recorded (stream r i) := by
    have hstep : ∀ r : Router ι, ∀ e, (∀ i, Recorded (stream r i)) →
        ∀ i, Recorded (stream (StreamRouter.step c r e) i) := fun _ e h => recorded_event h e
    have hstart : ∀ i, Recorded (stream (Router.start : Router ι) i) := fun _ => recorded_start
    exact run_invariant hstep hstart events
  refine ⟨?_, ?_, ?_, ?_⟩
  · refine run_balanced (P := ι) (posts c) ?_ ?_
    · intro k
      have hnone : ∑ i ∈ ids, entry (Router.start : Router ι) i k = 0 :=
        Finset.sum_eq_zero fun i _ => rfl
      rw [hnone]
      cases k <;> rfl
    · intro e he
      exact List.mem_toFinset.mpr (List.mem_map_of_mem he)
  · exact Finset.sum_congr rfl fun i _ => (hrecorded i).tokens
  · exact Finset.sum_congr rfl fun i _ => (hrecorded i).errors
  · rw [Finset.card_filter]
    refine Finset.sum_congr rfl fun i _ => ?_
    rw [(hrecorded i).requests]
    cases (stream r i).pos.final <;> rfl

end ServingBooks
