import OutcomeAssurance.EventWire
import OutcomeAssurance.RouterAnswers
import OutcomeAssurance.StreamStatus

/-! # What the load test reports

    `stream_to_completion` in `loadtest/locustfile.py` reads a response to its
    end and reports a status.  For every request, whatever came before it, that
    is the status the server has counted, and a 500 where the handler raised. -/

namespace LoadTest

open EventWire JsonReader ModelBackend PyText RouterAnswers Runs Streaming StreamRouter
open StreamStatus TraceChain
open RouterCalls
open RateLimiter hiding Call step
open SlotLimiter hiding Event step

/-! ## The client -/

inductive Outcome where
  | ok
  | backpressure503
  | rateLimited429
  | http (statusCode : Nat)
  /-- `stream_error_` and the reason. -/
  | streamError (reason : Json)
  /-- `exception_` and the name of the exception. -/
  | exception (name : String)

structure Report where
  status : Outcome := .ok
  /-- `first_token_at` is set, and a time to the first token reported. -/
  timed : Bool := false

structure HttpResponse where
  statusCode : Nat
  lines : List String

def isReason : Json → Bool
  | .str s => s = "reason"
  | _ => false

/-- `payload["reason"]` where `"reason" in payload`, or the exception. -/
def reasonOf : Json → Except String (Option Json)
  | .obj fields => .ok ((fields.find? fun p => p.1 = "reason").map Prod.snd)
  | .arr items => if items.any isReason then .error "TypeError" else .ok none
  | .str s => if occursIn "reason" s then .error "TypeError" else .ok none
  | .null | .bool _ | .int _ => .error "TypeError"

/-- The loop over `resp.iter_lines`. -/
def readLines : Report → List String → Report
  | r, [] => r
  | r, line :: rest =>
      match cutPrefix "data:" line with
      | none => readLines r rest
      | some text =>
          match loads (strip text) with
          | none => ⟨.exception "JSONDecodeError", true⟩
          | some payload =>
              match reasonOf payload with
              | .error name => ⟨.exception name, true⟩
              | .ok none => readLines { r with timed := true } rest
              | .ok (some reason) => readLines ⟨.streamError reason, true⟩ rest

def streamToCompletion (resp : HttpResponse) : Report :=
  if resp.statusCode = 503 then { status := .backpressure503 }
  else if resp.statusCode = 429 then { status := .rateLimited429 }
  else if resp.statusCode ≠ 200 then { status := .http resp.statusCode }
  else readLines {} resp.lines

/-! ## The response -/

/-- What `requests` makes of a text: its lines, with empty lines that it may
    add where two pieces of the response meet. -/
def CutsLines (iterLines : String → List String) : Prop :=
  ∀ text, (iterLines text).filter (· ≠ "") = (lines text).filter (· ≠ "")

/-- What a client receives that reads a response to its end. -/
inductive Receives (write : Chunk → String) (iterLines : String → List String) :
    Call → HttpResponse → Prop where
  | refused (e : JsonError) :
      Receives write iterLines (.answered e) ⟨e.statusCode, iterLines e.content⟩
  /-- The server's own answer to an exception, whatever its text. -/
  | failed (f : Failure) (text : String) :
      Receives write iterLines (.raised f) ⟨500, iterLines text⟩
  | read {req : GenerationRequest} {s : Stream} {held : Body} {chunks : List Chunk}
      (hpos : s.pos = .finished .returned) (hsent : sent chunks = s.events) :
      Receives write iterLines (.streaming req s held) ⟨200, iterLines (body write chunks)⟩

/-- What the server's metrics say of a request, and what is reported of it. -/
inductive Booked : Call → Report → Prop where
  | rateLimited (e : RateLimitExceeded) :
      Booked (.answered (rateLimited e)) { status := .rateLimited429 }
  | serverBusy (e : BackpressureRejected) :
      Booked (.answered (serverBusy e)) { status := .backpressure503 }
  | queueTimeout : Booked (.answered queueTimeout) { status := .backpressure503 }
  /-- No status is counted of a handler that raised. -/
  | failed (f : Failure) : Booked (.raised f) { status := .http 500 }
  | completed {req : GenerationRequest} {s : Stream} {held : Body}
      (h : s.effects.filterMap countedStatus = [.completed]) :
      Booked (.streaming req s held) ⟨.ok, true⟩
  | timeout {req : GenerationRequest} {s : Stream} {held : Body}
      (h : s.effects.filterMap countedStatus = [.timeout]) :
      Booked (.streaming req s held) ⟨.streamError (.str "TIMEOUT"), true⟩
  | backendError {req : GenerationRequest} {s : Stream} {held : Body}
      (h : s.effects.filterMap countedStatus = [.backendError]) :
      Booked (.streaming req s held) ⟨.streamError (.str "BACKEND_ERROR"), true⟩

/-! ## Reading the lines -/

/-- What the report becomes at an event. -/
def hear (r : Report) : SseEvent → Report
  | .error _ reason => ⟨.streamError (.str reason), true⟩
  | _ => { r with timed := true }

/-- Only lines of data count. -/
theorem readLines_idle {line : String} (h : cutPrefix "data:" line = none) (r : Report)
    (rest : List String) : readLines r (line :: rest) = readLines r rest := by
  rw [readLines, h]

theorem readLines_data (r : Report) (e : SseEvent) (rest : List String) :
    readLines r (("data: " ++ e.data) :: rest) = readLines (hear r e) rest := by
  rw [readLines, cut_data]
  dsimp only
  rw [strip_data, loads_data]
  cases e with
  | token t => rfl
  | error requestId reason => rfl
  | done requestId info tokensEmitted => rfl

theorem readLines_filter (r : Report) (ls : List String) :
    readLines r (ls.filter (· ≠ "")) = readLines r ls := by
  induction ls generalizing r with
  | nil => rfl
  | cons line rest ih =>
      by_cases hline : line = ""
      · subst hline
        rw [List.filter_cons_of_neg (by decide), readLines_idle (by decide), ih]
      · rw [List.filter_cons_of_pos (by simpa using hline)]
        simp only [readLines, ih]

/-- The report of the lines is made of the events. -/
theorem readLines_chunks (r : Report) (chunks : List Chunk) :
    readLines r (chunks.flatMap written) = (sent chunks).foldl hear r := by
  induction chunks generalizing r with
  | nil => rfl
  | cons chunk chunks ih =>
      cases chunk with
      | event e =>
          show readLines r (_ :: _ :: _ :: chunks.flatMap written) = (sent chunks).foldl hear _
          rw [readLines_idle (cut_data_of_event e.event), readLines_data,
            readLines_idle (by decide), ih]
      | ping comment h =>
          show readLines r (_ :: _ :: chunks.flatMap written) = (sent chunks).foldl hear _
          rw [readLines_idle (cut_data_of_comment comment), readLines_idle (by decide), ih]

/-! ## Streams that end by themselves -/

/-- Tokens and a last event, and the status that goes with it, counted. -/
structure Delivered (req : GenerationRequest) (s : Stream) (e : SseEvent) : Prop where
  reports : Reports req e s.status
  counted : s.effects.filterMap countedStatus = [s.status]
  tokens : ∃ texts : List String, s.events = texts.map .token ++ [e]

structure Sound (req : GenerationRequest) (s : Stream) : Prop where
  kept : (∀ how, s.pos ≠ .finished how) → Kept req s
  delivered : s.pos = .finished .returned → ∃ e, Delivered req s e

variable {req : GenerationRequest} {s : Stream} {sig : Signal}

theorem returned_of_step (h : (Streaming.step req s sig).pos = .finished .returned) :
    s.pos = .finished .returned ∨ (s.pos = .errorYield ∨ s.pos = .doneYield) ∧
      Streaming.step req s sig = s.finish req .returned := by
  have hstepped : Stepped req s sig (Streaming.step req s sig) := stepped s sig
  generalize Streaming.step req s sig = s' at hstepped h ⊢
  cases hstepped with
  | idle => exact Or.inl h
  | returned hpos => exact Or.inr ⟨hpos, rfl⟩
  | _ => cases h

theorem delivered_of_closing {e : SseEvent} (h : Closing req s e) :
    Delivered req (s.finish req .returned) e :=
  ⟨h.reports, (h.toUncounted.finish req .returned).1, h.tokens⟩

theorem sound_start (req : GenerationRequest) : Sound req Stream.start where
  kept := fun _ => underway_start
  delivered := fun hpos => by cases hpos

theorem sound_step (h : Sound req s) (sig : Signal) : Sound req (Streaming.step req s sig) := by
  by_cases hfinished : ∃ how, s.pos = .finished how
  · obtain ⟨how, hpos⟩ := hfinished
    rw [step_of_finished hpos]
    exact h
  · have hkept : Kept req s := h.kept fun how hpos => hfinished ⟨how, hpos⟩
    constructor
    · intro hlive
      by_cases hbenign : Benign s sig
      · exact kept_step hkept hbenign
      · obtain ⟨how, hpos, -⟩ := not_accounted_step hkept hbenign
        exact absurd hpos (hlive how)
    · intro hpos
      rcases returned_of_step hpos with hbefore | ⟨hyield, hstep⟩
      · exact absurd ⟨_, hbefore⟩ hfinished
      · obtain ⟨e, hclosing⟩ : ∃ e, Closing req s e := by
          unfold Kept at hkept
          rcases hyield with hyield | hyield
          · rw [hyield] at hkept
            exact hkept
          · rw [hyield] at hkept
            exact hkept
        rw [hstep]
        exact ⟨e, delivered_of_closing hclosing⟩

theorem foldl_tokens {r : Report} (hr : r.status = .ok) (texts : List String) :
    ((texts.map SseEvent.token).foldl hear r).status = .ok := by
  induction texts generalizing r with
  | nil => exact hr
  | cons t texts ih => exact ih hr

/-- The events of such a stream are reported as the stream was counted. -/
theorem Delivered.booked {e : SseEvent} (h : Delivered req s e) (held : Body) :
    Booked (.streaming req s held) (s.events.foldl hear {}) := by
  obtain ⟨hreports, hcounted, texts, hevents⟩ := h
  have hok : ((texts.map SseEvent.token).foldl hear {}).status = .ok := foldl_tokens rfl texts
  rw [hevents, List.foldl_concat]
  generalize (texts.map SseEvent.token).foldl hear {} = r at hok ⊢
  generalize s.status = status at hreports hcounted
  cases hreports with
  | timeout => exact .timeout hcounted
  | backendError => exact .backendError hcounted
  | done n =>
      show Booked _ ⟨r.status, true⟩
      rw [hok]
      exact .completed hcounted

/-! ## Any interleaving -/

variable {ι : Type} [DecidableEq ι] {c : Config} {r : Router ι}

/-- The responses of the router are sound streams. -/
def SoundCalls (r : Router ι) : Prop :=
  ∀ i req s held, r.calls i = .streaming req s held → Sound req s

theorem soundCalls_step (h : SoundCalls r) (e : Event ι) :
    SoundCalls (StreamRouter.step c r e) := by
  intro i req s held hcall
  obtain ⟨call, hbecomes, hcalls⟩ := turns c r e
  rw [hcalls] at hcall
  by_cases hi : i = e.request
  · rw [if_pos hi] at hcall
    subst hcall
    generalize hbefore : r.calls e.request = before at hbecomes
    cases hbecomes with
    | same => exact h e.request req s held hbefore
    | ended hnone => cases hnone
    | opens => exact sound_start req
    | driven hstreaming => exact sound_step (h _ _ _ _ (hbefore.trans hstreaming)) _
    | left hstreaming => exact h _ _ _ _ (hbefore.trans hstreaming)
  · rw [if_neg hi] at hcall
    exact h i req s held hcall

theorem soundCalls_after (c : Config) (events : List (Event ι)) : SoundCalls (after c events) := by
  have hstart : SoundCalls (Router.start : Router ι) := fun i req s held hcall => by cases hcall
  have hstep : ∀ r : Router ι, ∀ e, SoundCalls r → SoundCalls (StreamRouter.step c r e) :=
    fun _ e h => soundCalls_step h e
  exact run_invariant hstep hstart events

variable {write : Chunk → String} {iterLines : String → List String} {call : Call}
  {resp : HttpResponse}

/-- **THE LOAD TEST REPORTS WHAT THE SERVER COUNTED**: in any interleaving of
    requests, a response read to its end is reported with the status that the
    server has counted for it, a handler that raised as a 500, and nothing else
    as an HTTP failure or an exception; and a time to the first token is
    reported of every stream, also of one that failed before its first token. -/
theorem reported_as_counted (hwrite : Frames write) (hcuts : CutsLines iterLines) (c : Config)
    (events : List (Event ι)) (i : ι)
    (h : Receives write iterLines ((after c events).calls i) resp) :
    Booked ((after c events).calls i) (streamToCompletion resp) := by
  have haccounted := accounted_after c events i
  generalize hcall : (after c events).calls i = call at h
  cases h with
  | refused e =>
      rcases haccounted with ⟨habsent, -⟩ | ⟨before, b, later, -, -, hjustified⟩
      · rw [hcall] at habsent
        cases habsent
      · rw [hcall] at hjustified
        cases hjustified with
        | rateLimited => exact .rateLimited _
        | late => exact .queueTimeout
        | busy => exact .serverBusy _
        | expired => exact .queueTimeout
  | failed f => exact .failed f
  | @read req s held chunks hpos hsent =>
      obtain ⟨e, hdelivered⟩ := (soundCalls_after c events i req s held hcall).delivered hpos
      have hlines : readLines {} (iterLines (body write chunks)) = s.events.foldl hear {} := by
        rw [← readLines_filter, hcuts, readLines_filter, lines_body hwrite, readLines_chunks,
          hsent]
      show Booked _ (readLines {} (iterLines (body write chunks)))
      rw [hlines]
      exact hdelivered.booked held

/-- A stream whose backend fails behind its first token. -/
theorem failure_reported :
    let c : Config := ⟨⟨20, 20⟩, { capacity := 20, refillRate := 5 }⟩
    let b : Submission := ⟨"REQ-1", none, "alice", ⟨"", "", ""⟩, 0, false⟩
    let events : List (Event Nat) := [.submit 0 b, .drive 0 .advance, .drive 0 (.token "a"),
      .drive 0 .advance, .drive 0 (.raises (.backend ⟨.permanent, "down"⟩)), .drive 0 .advance]
    let chunks : List Chunk := [.event (.token "a"), .event (.error "REQ-1" "BACKEND_ERROR")]
    Booked ((after c events).calls 0)
      (streamToCompletion ⟨200, lines (body writeChunk chunks)⟩) := by
  intro c b events chunks
  have hstream : (stream (after c events) 0).pos = .finished .returned ∧
      (stream (after c events) 0).events = sent chunks := by decide +kernel
  refine reported_as_counted frames_writeChunk (fun _ => rfl) c events 0 ?_
  cases hcall : (after c events).calls 0 with
  | streaming req s held =>
      rw [stream, hcall] at hstream
      exact .read hstream.1 hstream.2.symm
  | absent | queued | answered | raised | cancelled =>
      rw [stream, hcall] at hstream
      cases hstream.1

end LoadTest
