import OutcomeAssurance.CaseKeys
import OutcomeAssurance.ChainVerifier

/-! # Traces read back from the store

    `_persist_trace_events` of `app/persistence.py` and `verify_case_trace` of
    `app/api.py`.  A trace passes when it is verified in any order, and when it
    is rebuilt from its rows; columns are taken to be read back as written. -/

namespace TraceStorage

open KeyedTable CaseModel PyRuntime TraceChain ChainVerifier CaseStore CaseKeys

variable {R : Type} {rt : Runtime R}

/-! ## Calls with any arguments -/

/-- A call on a recorder; arguments are given as `json.dumps` writes them. -/
inductive RecorderCall where
  | record (stage eventType : String) (toolName : Option String) (evidenceIds : List String)
      (arguments : Option String)
  | transition (current target : CaseStatus)

/-- One call; a transition that raises leaves the recorder as it is. -/
def RecorderCall.apply (rt : Runtime R) (t : TraceRecorder) : RecorderCall → TraceRecorder
  | .record stage eventType toolName evidenceIds arguments =>
      t.recordWritten rt stage eventType toolName evidenceIds arguments
  | .transition current target =>
      match t.transition rt current target with
      | .ok (_, t') => t'
      | .error _ => t

/-- `TraceRecorder(case_id)` after a sequence of calls. -/
def traceOf (rt : Runtime R) (caseId : String) (calls : List RecorderCall) : TraceRecorder :=
  calls.foldl (RecorderCall.apply rt) (TraceRecorder.start rt caseId)

/-- The invariant of a recorder under all calls. -/
structure Verifiable (rt : Runtime R) (caseId : String) (t : TraceRecorder) : Prop where
  caseId_eq : t.caseId = caseId
  numbered : Numbered t
  chained : Chained rt t

theorem verifiable_start (rt : Runtime R) (caseId : String) :
    Verifiable rt caseId (TraceRecorder.start rt caseId) where
  caseId_eq := rfl
  numbered := numbered_start rt caseId
  chained := chained_start caseId

theorem Verifiable.apply {caseId : String} {t : TraceRecorder} (h : Verifiable rt caseId t)
    (call : RecorderCall) : Verifiable rt caseId (RecorderCall.apply rt t call) := by
  cases call with
  | record stage eventType toolName evidenceIds arguments =>
      exact ⟨h.caseId_eq, h.numbered.recordWritten .., h.chained.recordWritten ..⟩
  | transition current target =>
      by_cases hallowed : target ∈ allowedTransitions current
      · rw [RecorderCall.apply, transition_of_allowed t hallowed]
        exact ⟨h.caseId_eq, h.numbered.record _, h.chained.record _⟩
      · rw [RecorderCall.apply, transition_of_illegal t hallowed]
        exact h

theorem verifiable_traceOf (rt : Runtime R) (caseId : String) (calls : List RecorderCall) :
    Verifiable rt caseId (traceOf rt caseId calls) :=
  List.foldlRecOn calls _ (verifiable_start rt caseId) fun _ h call _ => h.apply call

/-- The events of such a recorder pass in whatever order they are given. -/
theorem Verifiable.verify {caseId : String} {t : TraceRecorder} (h : Verifiable rt caseId t)
    {given : List TraceEvent} (hperm : given.Perm t.events) :
    verifyTraceChain rt caseId given = true := by
  rw [verifyTraceChain, bySequence_perm (increasing_of_numbered h.numbered) hperm,
    ← h.caseId_eq]
  exact h.chained.verified

/-! ## Rows -/

/-- The rows `_persist_trace_events` adds; each is filed under the given case. -/
def persistedRows (caseId : String) (events : List TraceEvent) : List TraceEvent :=
  events.map fun t => { t with caseId := caseId }

/-- `_persist_trace_events`. -/
def persistTraceEvents (stored : Table TraceEvent) (caseId : String) (events : List TraceEvent) :
    Option (Table TraceEvent) :=
  stored.insert (persistedRows caseId events)

/-- `case.trace_events`: the rows of the case, in the order of the table. -/
def traceEventsOf (stored : Table TraceEvent) (caseId : String) : List TraceEvent :=
  stored.rows.filter fun t => t.caseId = caseId

/-- What `verify_case_trace` answers. -/
structure TraceVerification where
  caseId : String
  eventCount : Nat
  chainVerified : Bool
  deriving DecidableEq, Repr

/-- The event rebuilt from a row, column by column. -/
def rebuilt (t : TraceEvent) : TraceEvent where
  traceId := t.traceId
  caseId := t.caseId
  sequence := t.sequence
  stage := t.stage
  eventType := t.eventType
  toolName := t.toolName
  argumentHash := t.argumentHash
  resultHash := t.resultHash
  stateBeforeHash := t.stateBeforeHash
  stateAfterHash := t.stateAfterHash
  evidenceIds := t.evidenceIds

/-- `verify_case_trace` of a stored case, on its rows as the query returns
    them. -/
def verifyCaseTrace (rt : Runtime R) (caseId : String) (rows : List TraceEvent) :
    TraceVerification :=
  let events := (bySequence rows).map rebuilt
  { caseId := caseId
    eventCount := events.length
    chainVerified := verifyTraceChain rt caseId events }

/-- A recorder's events are filed under their own case. -/
theorem Verifiable.persistedRows_eq {caseId : String} {t : TraceRecorder}
    (h : Verifiable rt caseId t) : persistedRows caseId t.events = t.events := by
  conv_rhs => rw [← List.map_id t.events]
  refine List.map_congr_left (fun e he => ?_)
  rw [← h.caseId_eq, ← h.numbered.caseIds e he]
  rfl

/-- Where the case had no rows before, its rows are the ones written. -/
theorem traceEventsOf_persisted {stored stored' : Table TraceEvent} {caseId : String}
    {events : List TraceEvent} (hfresh : traceEventsOf stored caseId = [])
    (h : persistTraceEvents stored caseId events = some stored') :
    traceEventsOf stored' caseId = persistedRows caseId events := by
  rw [traceEventsOf, Table.rows_of_insert h, List.filter_append]
  have hown : ∀ t ∈ persistedRows caseId events, decide (t.caseId = caseId) = true := by
    intro t ht
    obtain ⟨e, -, rfl⟩ := List.mem_map.mp ht
    exact decide_eq_true rfl
  rw [List.filter_eq_self.mpr hown]
  exact congrArg (· ++ persistedRows caseId events) hfresh

/-- The rows of a case, in whatever order they are read, verify. -/
theorem Verifiable.verifyCaseTrace {caseId : String} {t : TraceRecorder}
    (h : Verifiable rt caseId t) {rows : List TraceEvent}
    (hperm : rows.Perm (persistedRows caseId t.events)) :
    verifyCaseTrace rt caseId rows = ⟨caseId, t.events.length, true⟩ := by
  rw [h.persistedRows_eq] at hperm
  have hsorted : (bySequence rows).map rebuilt = t.events := by
    rw [bySequence_perm (increasing_of_numbered h.numbered) hperm]
    exact List.map_id t.events
  rw [TraceStorage.verifyCaseTrace, hsorted, h.verify (List.Perm.refl _)]

/-- The rows of a recorder go into every table that holds rows of other cases
    only. -/
theorem Verifiable.persists {caseId : String} {t : TraceRecorder} (h : Verifiable rt caseId t)
    {stored : Table TraceEvent} (hother : ∀ r ∈ stored.rows, ∃ c, c ≠ caseId ∧ Owns c r) :
    ∃ stored', persistTraceEvents stored caseId t.events = some stored' := by
  have hblock := trace_block h.numbered
  rw [h.caseId_eq] at hblock
  rw [persistTraceEvents, h.persistedRows_eq]
  exact insert_block hother hblock

/-! ## Every trace -/

/-- A trace passes, in any order and from its rows in any order; its rows are
    accepted beside those of other cases, and a transition that is not allowed
    raises and records nothing. -/
structure PassesVerification (rt : Runtime R) (caseId : String) (t : TraceRecorder) : Prop where
  recorded : ∀ given : List TraceEvent, given.Perm t.events →
    verifyTraceChain rt caseId given = true
  stored : ∀ stored stored' : Table TraceEvent, traceEventsOf stored caseId = [] →
    persistTraceEvents stored caseId t.events = some stored' →
    ∀ rows, rows.Perm (traceEventsOf stored' caseId) →
      verifyCaseTrace rt caseId rows = ⟨caseId, t.events.length, true⟩
  accepted : ∀ stored : Table TraceEvent, (∀ r ∈ stored.rows, ∃ c, c ≠ caseId ∧ Owns c r) →
    ∃ stored', persistTraceEvents stored caseId t.events = some stored'
  illegal : ∀ current target, target ∉ allowedTransitions current →
    t.transition rt current target = .error ⟨current, target⟩
      ∧ RecorderCall.apply rt t (.transition current target) = t

/-- **EVERY RECORDED TRACE VERIFIES**, also after storage. -/
theorem traces_verify (rt : Runtime R) (caseId : String) (calls : List RecorderCall) :
    PassesVerification rt caseId (traceOf rt caseId calls) := by
  have h := verifiable_traceOf rt caseId calls
  refine ⟨fun given hperm => h.verify hperm, ?_, fun stored hother => h.persists hother, ?_⟩
  · intro stored stored' hfresh hpersist rows hperm
    rw [traceEventsOf_persisted hfresh hpersist] at hperm
    exact h.verifyCaseTrace hperm
  · intro current target hillegal
    have hraises : (traceOf rt caseId calls).transition rt current target
        = .error ⟨current, target⟩ := transition_of_illegal _ hillegal
    refine ⟨hraises, ?_⟩
    rw [RecorderCall.apply, hraises]

end TraceStorage
