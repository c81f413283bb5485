import OutcomeAssurance.StreamRouter

/-! # What one event does to the requests

    An event of the streaming endpoint concerns one request.  What becomes of
    it is said here once, for everything that follows a request from its
    submission to the end of its response. -/

namespace RouterCalls

open ConditionQueue ModelBackend Streaming StreamRouter
open RateLimiter hiding Call step
open SlotLimiter hiding Event step

variable {ι : Type} [DecidableEq ι] {c : Config} {r r' : Router ι} {i : ι}

/-- What a request that waits, or has a response, asks for. -/
def reqOf : Call → Option GenerationRequest
  | .queued req _ => some req
  | .streaming req _ _ => some req
  | _ => none

/-- The stream of a response; what is no response yet has sent nothing. -/
def streamOf : Call → Stream
  | .streaming _ s _ => s
  | _ => Stream.start

def stream (r : Router ι) (i : ι) : Stream := streamOf (r.calls i)

/-- The event submits what is asked for, or it was asked for before. -/
def Brings (e : Event ι) (before : Call) (req : GenerationRequest) : Prop :=
  reqOf before = some req ∨ ∃ b, e = .submit e.request b ∧ req = b.request

/-- What becomes of a request at an event of it. -/
inductive Becomes (e : Event ι) (before : Call) : Call → Prop where
  | same : Becomes e before before
  /-- It is answered with an error, raises, or is cancelled. -/
  | ended {call : Call} (h : reqOf call = none) : Becomes e before call
  | waits {req : GenerationRequest} {wait : Wait} (h : Brings e before req) :
      Becomes e before (.queued req wait)
  | opens {req : GenerationRequest} (h : Brings e before req) :
      Becomes e before (.streaming req .start .holding)
  /-- The stream is resumed, or closed. -/
  | driven {req : GenerationRequest} {s : Stream} {body body' : Body} {sig : Signal}
      (hbefore : before = .streaming req s body) :
      Becomes e before (.streaming req (Streaming.step req s sig) body')
  /-- The body is closed, and the stream left suspended. -/
  | left {req : GenerationRequest} {s : Stream} {body body' : Body}
      (hbefore : before = .streaming req s body) :
      Becomes e before (.streaming req s body')

/-- One request has become something else, and the others are as they were. -/
def Turns (r : Router ι) (e : Event ι) (r' : Router ι) : Prop :=
  ∃ call, Becomes e (r.calls e.request) call ∧
    ∀ j, r'.calls j = if j = e.request then call else r.calls j

theorem turns_same (r : Router ι) (e : Event ι) : Turns r e r := by
  refine ⟨r.calls e.request, .same, fun j => ?_⟩
  split
  · next hj => rw [hj]
  · rfl

theorem turns_set {e : Event ι} {call : Call} (hcalls : r'.calls = r.calls)
    (h : Becomes e (r.calls e.request) call) : Turns r e (r'.set e.request call) := by
  refine ⟨call, h, fun j => ?_⟩
  show (if j = e.request then call else r'.calls j) = _
  rw [hcalls]

theorem turns_progress {e : Event ι} {req : GenerationRequest} (hcalls : r'.calls = r.calls)
    (h : Brings e (r.calls e.request) req) (wait : Wait) (p : ConcurrencyLimiter ι × Progress) :
    Turns r e (r'.progress e.request req wait p) := by
  obtain ⟨limiter, progress⟩ := p
  cases progress with
  | entered =>
      refine turns_set ?_ (.opens h)
      exact hcalls
  | waiting =>
      refine turns_set ?_ (.waits h)
      exact hcalls
  | left =>
      cases wait with
      | pending | cancelled =>
          refine turns_set ?_ (.ended ?_)
          · exact hcalls
          · rfl
      | expired =>
          refine turns_set ?_ (.ended ?_)
          · exact hcalls
          · rfl

theorem turns_submit (b : Submission) : Turns r (.submit i b) (r.submit c i b) := by
  have hsubmits := submits c r i b
  generalize r.submit c i b = r' at hsubmits
  cases hsubmits with
  | @looked p buckets _ _ _ =>
      refine turns_progress (e := .submit i b) ?_ (Or.inr ⟨b, rfl, rfl⟩) .pending p
      rfl
  | _ =>
      refine turns_set (e := .submit i b) ?_ (.ended ?_)
      · rfl
      · rfl

/-- **EVERY EVENT** turns the request it is of, and no other. -/
theorem turns (c : Config) (r : Router ι) (e : Event ι) : Turns r e (StreamRouter.step c r e) := by
  have hqueued : ∀ {e : Event ι} {req : GenerationRequest} {wait : Wait},
      r.calls e.request = .queued req wait → Brings e (r.calls e.request) req := by
    intro e req wait hcall
    rw [hcall]
    exact Or.inl rfl
  have hoccurs := occurs c r e
  generalize StreamRouter.step c r e = r' at hoccurs
  cases hoccurs with
  | idle => exact turns_same r e
  | submit hcall b => exact turns_submit b
  | @resume i req wait w hcall hw hdue =>
      exact turns_progress (e := .resume i) rfl (hqueued hcall) wait _
  | @expire i req hcall => exact turns_set (e := .expire i) rfl (.waits (hqueued hcall))
  | @cancel i req wait hcall => exact turns_set (e := .cancel i) rfl (.waits (hqueued hcall))
  | @drive i req s hcall sig =>
      rw [Router.drive]
      split
      · exact turns_set (e := .drive i sig) rfl (.left hcall)
      · dsimp only
        split
        · exact turns_set (e := .drive i sig) rfl (.driven hcall)
        · exact turns_set (e := .drive i sig) rfl (.driven hcall)
  | @finalise i req s body hcall =>
      cases body with
      | holding =>
          rw [Router.finalise]
          split
          · exact turns_same r _
          · exact turns_set (e := .finalise i) rfl (.driven hcall)
      | released => exact turns_set (e := .finalise i) rfl (.driven hcall)
      | dropped => exact turns_same r _

end RouterCalls
