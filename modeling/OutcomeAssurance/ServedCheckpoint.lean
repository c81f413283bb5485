import OutcomeAssurance.ReleaseCache
import OutcomeAssurance.ReleaseLifecycle
import OutcomeAssurance.RouterCalls

/-! # The checkpoint that clients are told

    One process serves streams while releases are activated and rolled back in
    it.  `get_model_backend` takes the model of a request from the cache of
    `app/model_release.py`, once, when the request comes in; `done` names it at
    the end.  Whatever happens in between, that is the release that was ACTIVE
    when the request came in. -/

namespace ServedCheckpoint

open ModelBackend ReleaseCache ReleaseModel RouterCalls Runs Streaming
open StreamRouter hiding Call step
open ReleaseQueries

/-! ## One stream -/

variable {req : GenerationRequest} {s : Stream}

/-- Every `done` of the stream names what was asked for. -/
def NamesModel (req : GenerationRequest) (s : Stream) : Prop :=
  ∀ e ∈ s.events, e.event = "done" → ∃ count, e = .done req.requestId req.info count

theorem NamesModel.add (h : NamesModel req s) {s' : Stream} {e : SseEvent}
    (hevents : s'.events = s.events ++ [e])
    (he : e.event = "done" → ∃ count, e = .done req.requestId req.info count) :
    NamesModel req s' := by
  intro e' hmem hdone
  rw [hevents, List.mem_append, List.mem_singleton] at hmem
  rcases hmem with hold | rfl
  · exact h e' hold hdone
  · exact he hdone

theorem namesModel_step (h : NamesModel req s) (sig : Signal) :
    NamesModel req (Streaming.step req s sig) := by
  have hstepped : Stepped req s sig (Streaming.step req s sig) := stepped s sig
  have htoken : "token" ≠ "done" := by decide
  have herror : "error" ≠ "done" := by decide
  generalize Streaming.step req s sig = s' at hstepped
  cases hstepped with
  | sent => exact h.add rfl fun hdone => absurd hdone htoken
  | timedOut => exact h.add rfl fun hdone => absurd hdone herror
  | failed => exact h.add rfl fun hdone => absurd hdone herror
  | exhausted => exact h.add rfl fun _ => ⟨s.tokensEmitted, rfl⟩
  | _ => exact h

/-! ## The deployment -/

variable {ι : Type} [DecidableEq ι]

/-- The process with its cache, and the requests it serves. -/
structure Deployment (ι : Type) where
  process : Process
  router : Router ι := Router.start

/-- The model of `get_model_backend`. -/
def modelInfo (active : ActiveModelInfo) : ModelInfo where
  modelName := active.modelName
  modelVersion := "v1"
  checkpointId := active.checkpointId

/-- The submission, with the model that the dependency gives it. -/
def withModel (active : ActiveModelInfo) (b : Submission) : Submission :=
  { b with info := modelInfo active }

inductive Event (ι : Type) where
  | release (a : Action)
  | serve (e : StreamRouter.Event ι)

/-- The event as the router sees it. -/
def underModel (active : ActiveModelInfo) : StreamRouter.Event ι → StreamRouter.Event ι
  | .submit i b => .submit i (withModel active b)
  | e => e

def step (c : Config) (d : Deployment ι) : Event ι → Deployment ι
  -- the requests of a process end with it
  | .release .restart => { process := d.process.step .restart }
  | .release a => { d with process := d.process.step a }
  | .serve e => { d with router := StreamRouter.step c d.router (underModel d.process.cache e) }

/-- The deployment after a history. -/
def after (c : Config) (db : Db) (events : List (Event ι)) : Deployment ι :=
  run (step c) { process := Process.boot db } events

variable {c : Config} {db : Db} {events : List (Event ι)} {i : ι}

theorem after_snoc (events : List (Event ι)) (e : Event ι) :
    after c db (events ++ [e]) = step c (after c db events) e := run_snoc _ _ _

/-! ## Where requests come from -/

/-- The request came in during the history, and asks for the model that the
    cache held then. -/
def Origin (c : Config) (db : Db) (events : List (Event ι)) (i : ι) (req : GenerationRequest) :
    Prop :=
  ∃ before b rest, events = before ++ .serve (.submit i b) :: rest ∧
    req = (withModel (after c db before).process.cache b).request

theorem Origin.snoc (h : Origin c db events i req) (e : Event ι) :
    Origin c db (events ++ [e]) i req := by
  obtain ⟨before, b, rest, rfl, hreq⟩ := h
  exact ⟨before, b, rest ++ [e], by simp, hreq⟩

/-- A request that waits or has a response is known from its submission on. -/
structure Known (c : Config) (db : Db) (events : List (Event ι)) (i : ι)
    (call : StreamRouter.Call) : Prop where
  origin : ∀ req, reqOf call = some req → Origin c db events i req
  named : ∀ req s held, call = .streaming req s held → NamesModel req s

theorem Known.snoc {call : StreamRouter.Call} (h : Known c db events i call) (e : Event ι) :
    Known c db (events ++ [e]) i call where
  origin := fun req hreq => (h.origin req hreq).snoc e
  named := h.named

/-- What a submission brings comes in with it. -/
theorem origin_of_brings {e : StreamRouter.Event ι} {call : StreamRouter.Call}
    (h : Known c db events e.request call)
    (hbrings : Brings (underModel (after c db events).process.cache e) call req) :
    Origin c db (events ++ [.serve e]) e.request req := by
  rcases hbrings with hreq | ⟨b, he, rfl⟩
  · exact (h.origin req hreq).snoc _
  · cases e with
    | submit i b' =>
        obtain ⟨-, rfl⟩ := StreamRouter.Event.submit.inj he
        exact ⟨events, b', [], rfl, rfl⟩
    | resume i => cases he
    | expire i => cases he
    | cancel i => cases he
    | drive i sig => cases he
    | finalise i => cases he

omit [DecidableEq ι] in
theorem request_underModel (active : ActiveModelInfo) (e : StreamRouter.Event ι) :
    (underModel active e).request = e.request := by
  cases e <;> rfl

theorem known_serve (h : ∀ i, Known c db events i ((after c db events).router.calls i))
    (e : StreamRouter.Event ι) (i : ι) :
    Known c db (events ++ [.serve e]) i
      ((after c db (events ++ [.serve e])).router.calls i) := by
  rw [after_snoc]
  show Known c db _ i ((StreamRouter.step c (after c db events).router
    (underModel (after c db events).process.cache e)).calls i)
  obtain ⟨call, hbecomes, hcalls⟩ := turns c (after c db events).router
    (underModel (after c db events).process.cache e)
  rw [request_underModel] at hbecomes hcalls
  rw [hcalls]
  split
  · next hi =>
      subst hi
      have hbefore := h e.request
      cases hbecomes with
      | same => exact hbefore.snoc _
      | @ended call hended =>
          refine ⟨fun req hreq => ?_, fun req s held hcall => ?_⟩
          · cases hended.symm.trans hreq
          · rw [hcall] at hended
            cases hended
      | waits hbrings =>
          refine ⟨fun req hreq => ?_, fun req s held hcall => by cases hcall⟩
          obtain rfl := Option.some.inj hreq
          exact origin_of_brings hbefore hbrings
      | opens hbrings =>
          refine ⟨fun req hreq => ?_, fun req s held hcall => ?_⟩
          · obtain rfl := Option.some.inj hreq
            exact origin_of_brings hbefore hbrings
          · obtain ⟨rfl, rfl, -⟩ := StreamRouter.Call.streaming.inj hcall
            exact fun e he => absurd he List.not_mem_nil
      | @driven req s held held' sig hcall =>
          rw [hcall] at hbefore
          refine ⟨fun req' hreq => ?_, fun req' s' held hcall' => ?_⟩
          · exact (hbefore.origin req' hreq).snoc _
          · obtain ⟨rfl, rfl, -⟩ := StreamRouter.Call.streaming.inj hcall'
            exact namesModel_step (hbefore.named _ _ _ rfl) sig
      | @left req s held held' hcall =>
          rw [hcall] at hbefore
          refine ⟨fun req' hreq => ?_, fun req' s' held hcall' => ?_⟩
          · exact (hbefore.origin req' hreq).snoc _
          · obtain ⟨rfl, rfl, -⟩ := StreamRouter.Call.streaming.inj hcall'
            exact hbefore.named _ _ _ rfl
  · exact (h i).snoc _

/-! ## What the cache held -/

/-- A promotion is committed, and its cache entry not written yet. -/
def Unsynced (s : Process) : Prop := ∃ c id, s.current = some (c, .committed id)

omit [DecidableEq ι] in
theorem cache_reach (db : Db) (cache : ActiveModelInfo) (c : ReleaseModel.Call) (pc : Pc) :
    (Process.reach db cache c pc).cache = cache := by
  cases pc <;> rfl

omit [DecidableEq ι] in
/-- An action leaves the cache alone, or leaves nothing to synchronise. -/
theorem cache_step (s : Process) (a : Action) :
    (s.step a).cache = s.cache ∨ ¬ Unsynced (s.step a) := by
  obtain ⟨db, cache, current⟩ := s
  cases a with
  | restart =>
      right
      rintro ⟨c, id, h⟩
      cases h
  | begin c => cases current <;> exact Or.inl rfl
  | tick =>
      cases current with
      | none => exact Or.inl rfl
      | some cp =>
          obtain ⟨c, pc⟩ := cp
          cases pc with
          | committed id =>
              right
              rintro ⟨c, id, h⟩
              cases h
          | _ => exact Or.inl (cache_reach _ _ _ _)

omit [DecidableEq ι] in
theorem cache_of_synced {s : Process} (h : Consistent s) (hsynced : ¬ Unsynced s) :
    s.cache = expected s.db := by
  rw [Consistent] at h
  cases hcurrent : s.current with
  | none =>
      rw [hcurrent] at h
      exact h
  | some cp =>
      rw [hcurrent] at h
      exact h.2 fun id hpc => hsynced ⟨cp.1, id, by rw [hcurrent, ← hpc]⟩

theorem process_step (d : Deployment ι) (e : Event ι) :
    (step c d e).process = d.process ∨ ∃ a, (step c d e).process = d.process.step a := by
  cases e with
  | serve e => exact Or.inl rfl
  | release a =>
      right
      refine ⟨a, ?_⟩
      cases a <;> rfl

theorem consistent_after (c : Config) (db : Db) (events : List (Event ι)) :
    Consistent (after c db events).process := by
  induction events using List.reverseRecOn with
  | nil => exact consistent_boot db
  | append_singleton events e ih =>
      rw [after_snoc]
      rcases process_step (after c db events) e with hsame | ⟨a, hstep⟩
      · rw [hsame]
        exact ih
      · rw [hstep]
        exact consistent_step _ a ih

/-- The cache holds what was ACTIVE at some moment of the history. -/
theorem cache_was_active (c : Config) (db : Db) (events : List (Event ι)) :
    ∃ pre, pre <+: events ∧
      (after c db events).process.cache = expected (after c db pre).process.db := by
  induction events using List.reverseRecOn with
  | nil => exact ⟨[], List.prefix_rfl, rfl⟩
  | append_singleton events e ih =>
      obtain ⟨pre, hpre, hcache⟩ := ih
      have hold : (after c db (events ++ [e])).process.cache = (after c db events).process.cache →
          ∃ pre, pre <+: events ++ [e] ∧
            (after c db (events ++ [e])).process.cache = expected (after c db pre).process.db :=
        fun hsame => ⟨pre, hpre.trans (List.prefix_append _ _), hsame.trans hcache⟩
      have hconsistent := consistent_after c db (events ++ [e])
      rw [after_snoc] at hold hconsistent ⊢
      rcases process_step (c := c) (after c db events) e with hsame | ⟨a, hstep⟩
      · exact hold (by rw [hsame])
      · rcases cache_step (after c db events).process a with hsame | hsynced
        · exact hold (by rw [hstep, hsame])
        · refine ⟨events ++ [e], List.prefix_rfl, ?_⟩
          rw [after_snoc]
          exact cache_of_synced hconsistent (by rw [hstep]; exact hsynced)

/-! ## What `done` names -/

theorem known_after (c : Config) (db : Db) (events : List (Event ι)) (i : ι) :
    Known c db events i ((after c db events).router.calls i) := by
  induction events using List.reverseRecOn generalizing i with
  | nil =>
      refine ⟨fun req hreq => ?_, fun req s held hcall => ?_⟩
      · cases hreq
      · cases hcall
  | append_singleton events e ih =>
      cases e with
      | serve e => exact known_serve ih e i
      | release a =>
          rw [after_snoc]
          cases a with
          | restart =>
              refine ⟨fun req hreq => ?_, fun req s held hcall => ?_⟩
              · cases hreq
              · cases hcall
          | begin c => exact (ih i).snoc _
          | tick => exact (ih i).snoc _

/-- The release that a request is told it was served by. -/
structure ServedBy (c : Config) (db : Db) (before : List (Event ι)) (active : ActiveModelInfo) :
    Prop where
  /-- It was ACTIVE at a moment before the request came in. -/
  was_active : ∃ pre, pre <+: before ∧ active = expected (after c db pre).process.db
  /-- It was ACTIVE when the request came in, but for the moment between a
      promotion's commit and its `_sync_cache`. -/
  is_active : ¬ Unsynced (after c db before).process →
    active = expected (after c db before).process.db

/-- **THE CHECKPOINT OF A RESPONSE**: whatever releases, rollbacks, restarts and
    requests come in whatever order, a `done` event names its request and the
    release that was ACTIVE when the request came in. -/
theorem served_checkpoint (c : Config) (db : Db) (events : List (Event ι)) (i : ι)
    (req : GenerationRequest) (s : Stream) (held : Body)
    (hcall : (after c db events).router.calls i = .streaming req s held) :
    ∀ e ∈ s.events, e.event = "done" → ∃ before b rest count active,
      events = before ++ .serve (.submit i b) :: rest ∧
      e = .done b.requestId (modelInfo active) count ∧ ServedBy c db before active := by
  intro e he hdone
  have hknown := known_after c db events i
  obtain ⟨count, rfl⟩ := hknown.named req s held hcall e he hdone
  obtain ⟨before, b, rest, hevents, rfl⟩ := hknown.origin req (by rw [hcall]; rfl)
  refine ⟨before, b, rest, count, (after c db before).process.cache, hevents, rfl, ?_⟩
  exact ⟨cache_was_active c db before, cache_of_synced (consistent_after c db before)⟩

/-- A release is activated, then a request comes in and is served to the end. -/
def activated : List (Event Nat) :=
  ((ReleaseLifecycle.released "a").flatMap fun c =>
    .release (.begin c) :: List.replicate 4 (.release .tick)) ++
  [.serve (.submit 0 ⟨"REQ-1", none, "alice", ⟨"", "", ""⟩, 0, false⟩),
    .serve (.drive 0 .advance), .serve (.drive 0 (.token "t")), .serve (.drive 0 .advance),
    .serve (.drive 0 .exhausted)]

/-- What `released` activates. -/
def releaseA : ActiveModelInfo := ⟨"a", "model", "checkpoint"⟩

/-- The release that was activated is named. -/
theorem activated_named :
    let c : Config := ⟨⟨20, 20⟩, { capacity := 20, refillRate := 5 }⟩
    (streamOf ((after c Db.empty activated).router.calls 0)).events =
        [.token "t", .done "REQ-1" (modelInfo releaseA) 1] ∧
      ∃ before b rest count active, activated = before ++ .serve (.submit 0 b) :: rest ∧
        SseEvent.done "REQ-1" (modelInfo releaseA) 1 = .done b.requestId (modelInfo active) count ∧
        ServedBy c Db.empty before active := by
  intro c
  have hevents : (streamOf ((after c Db.empty activated).router.calls 0)).events =
      [.token "t", .done "REQ-1" (modelInfo releaseA) 1] := by decide +kernel
  refine ⟨hevents, ?_⟩
  cases hcall : (after c Db.empty activated).router.calls 0 with
  | streaming req s held =>
      rw [hcall] at hevents
      have hevents : s.events = [.token "t", .done "REQ-1" (modelInfo releaseA) 1] := hevents
      refine served_checkpoint c Db.empty activated 0 req s held hcall _ ?_ rfl
      rw [hevents]
      exact List.mem_cons_of_mem _ List.mem_cons_self
  | absent | queued | answered | raised | cancelled =>
      rw [hcall] at hevents
      cases hevents

end ServedCheckpoint
