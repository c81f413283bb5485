import OutcomeAssurance.AdmissionTrace
import OutcomeAssurance.CaseViews

/-! # The stored trace and the stored status

    A run moves its case through the state machine and records each transition.
    The status of a stored case is therefore where the transitions of its stored
    trace lead to, and the trace passes verification, whatever was written to
    the store before. -/

namespace CaseTraces

open KeyedTable CaseModel PyRuntime TraceChain ChainVerifier TraceStorage
open Investigation Validation Resolution Guardrails Pipeline CaseStore CaseKeys CaseOwnership
open CaseIsolation CaseQueries CaseViews Runs
open ReviewModel (ReviewTask)

variable {R : Type} {rt : Runtime R} {c : Case} {sources : List Source} {budget : RunBudget}
  {a : CaseArtifacts R}

/-! ## The transitions of a trace -/

/-- A path of the state machine, from its initial state on. -/
structure Legal (path : List CaseStatus) : Prop where
  starts : path.head? = some .created
  allowed : path.IsChain fun current target => target ∈ allowedTransitions current

/-- The steps of a path. -/
def steps (path : List CaseStatus) : List (CaseStatus × CaseStatus) := path.zip path.tail

/-- The transitions recorded in a trace: event type and argument hash. -/
def transitionsOf (events : List TraceEvent) : List (String × Option String) :=
  (events.filter fun e => e.stage = "STATE").map fun e => (e.eventType, e.argumentHash)

/-- What a recorder writes of an entry's type and arguments. -/
def written (rt : Runtime R) (e : Entry) : String × Option String :=
  (e.eventType, e.arguments.map fun a => rt.sha256 (dumps a))

/-- What a recorder writes of a transition. -/
def writtenStep (rt : Runtime R) (p : CaseStatus × CaseStatus) : String × Option String :=
  written rt (transitionEntry p.1 p.2)

/-- The trace records the steps of the path, in order, and no other. -/
def Spells (rt : Runtime R) (events : List TraceEvent) (path : List CaseStatus) : Prop :=
  transitionsOf events = (steps path).map (writtenStep rt)

/-- The status that a case with this state ends with. -/
def endsAs : CaseStatus → Option TerminationStatus
  | .investigating => some .controlBlocked
  | .needsReview => some .needsReview
  | .completed => some .completed
  | _ => none

theorem transitionsOf_record (t : TraceRecorder) (e : Entry) :
    transitionsOf (t.record rt e).events =
      transitionsOf t.events ++ ([e].filter fun e => e.stage = "STATE").map (written rt) := by
  show transitionsOf (t.events ++ [_]) = _
  rw [transitionsOf, transitionsOf, List.filter_append, List.map_append]
  by_cases hstage : e.stage = "STATE"
  · simp [hstage, written, Function.comp_def]
  · simp [hstage]

theorem transitionsOf_recordAll (t : TraceRecorder) (es : List Entry) :
    transitionsOf (t.recordAll rt es).events =
      transitionsOf t.events ++ (es.filter fun e => e.stage = "STATE").map (written rt) := by
  induction es generalizing t with
  | nil => exact (List.append_nil _).symm
  | cons e es ih =>
      show transitionsOf ((t.record rt e).recordAll rt es).events = _
      rw [ih, transitionsOf_record, List.append_assoc, ← List.map_append, ← List.filter_append,
        List.singleton_append]

theorem transitionsOf_opened (rt : Runtime R) (caseId : String) :
    transitionsOf (openedTrace rt caseId).events = [] := rfl

/-! ## The path of a run -/

/-- The states of a run with a tool call left. -/
def completedPath (reviewed : Bool) : List CaseStatus :=
  [.created, .investigating, .evidenceValidated, .claimsResolved, .authorityEvaluated]
    ++ if reviewed then [.needsReview] else [.readyToReconcile, .completed]

/-- The transitions after the review stage. -/
def closingEntries (reviewed : Bool) : List Entry :=
  if reviewed then [transitionEntry .authorityEvaluated .needsReview]
  else [transitionEntry .authorityEvaluated .readyToReconcile,
    transitionEntry .readyToReconcile .completed]

theorem finish_eq (rt : Runtime R) (review : Option ReviewTask) (trace : TraceRecorder) :
    finish rt review .authorityEvaluated trace =
      .ok (if review.isSome then .needsReview else .completed,
        trace.recordAll rt (closingEntries review.isSome)) := by
  cases review with
  | none =>
      simp (disch := decide) only [finish, transition_of_allowed, bind, Except.bind]
      rfl
  | some task =>
      rw [finish, transition_of_allowed trace (by decide)]
      rfl

/-- What the guardrails record: no tool, and evidence of the run. -/
theorem runGuardrails_records (rt : Runtime R) (c : Case) (evidence : List (Evidence R))
    (claims : List Claim) :
    ∃ report scanned, (∀ e ∈ scanned, e.stage = "GUARDRAILS" ∧ e.toolName = none ∧
        e.evidenceIds ⊆ evidence.map Evidence.evidenceId) ∧
      ∀ trace, runGuardrails rt c evidence claims trace = (report, trace.recordAll rt scanned) := by
  refine ⟨_, _, ?_, fun _ => rfl⟩
  intro e he
  simp only [List.mem_cons, List.not_mem_nil, or_false] at he
  rcases he with rfl | rfl | rfl
  · refine ⟨rfl, rfl, fun id hid => ?_⟩
    exact of_decide_eq_true (List.mem_filter.mp hid).2
  · refine ⟨rfl, rfl, fun id hid => ?_⟩
    obtain ⟨⟨key, score⟩, hmem, rfl⟩ := List.mem_map.mp (List.mem_mergeSort.mp hid)
    obtain ⟨before, after, hpairs, -⟩ := PyDict.Dict.get_ofPairs.mp (PyDict.Dict.mem_items.mp hmem)
    have hpair : (key, score) ∈ evidence.map fun e => (e.evidenceId, e.relevanceScore) := by
      rw [hpairs]
      exact List.mem_append_right _ List.mem_cons_self
    obtain ⟨e, he, heq⟩ := List.mem_map.mp hpair
    exact List.mem_map.mpr ⟨e, he, congrArg Prod.fst heq⟩
  · exact ⟨rfl, rfl, List.nil_subset _⟩

/-- The review stage records one entry, without a tool or evidence. -/
theorem createReviewTask_records (rt : Runtime R) (c : Case) {authority : AuthorityRecord}
    (h : authority.reasonCodes ≠ []) :
    ∃ entry, (entry.stage = "AUTHORISE" ∧ entry.toolName = none ∧ entry.evidenceIds = []) ∧
      ∀ trace, createReviewTask rt c authority trace =
        .ok (reviewOf c authority, trace.record rt entry) := by
  obtain ⟨primary, hprimary⟩ := primaryReason_of_ne_nil h
  by_cases hhuman : authority.decision = .requireHuman
  · refine ⟨{ stage := "AUTHORISE", eventType := "REVIEW_TASK_CREATED" }, ⟨rfl, rfl, rfl⟩,
      fun trace => ?_⟩
    rw [createReviewTask, if_neg (not_not.mpr hhuman), reviewOf, if_pos hhuman, hprimary]
    rfl
  · refine ⟨{ stage := "AUTHORISE", eventType := "REVIEW_NOT_REQUIRED" }, ⟨rfl, rfl, rfl⟩,
      fun trace => ?_⟩
    rw [createReviewTask, if_pos hhuman, reviewOf, if_neg hhuman]

/-- The entries of a run with a tool call left, stage by stage. -/
def runEntries (rt : Runtime R) (c : Case) (sources : List Source) (scanned : List Entry)
    (review : Entry) : List Entry :=
  [transitionEntry .created .investigating]
    ++ (retrievalEntries c sources ++ criticEntry c (candidatesOf c sources) :: handoffEntries)
    ++ validatedEntries rt c (candidatesOf c sources)
    ++ [transitionEntry .investigating .evidenceValidated]
    ++ (resolvedClaims rt c (runEvidence rt c sources)).map resolvedEntry
    ++ [transitionEntry .evidenceValidated .claimsResolved] ++ scanned
    ++ [{ stage := "AUTHORISE", eventType := "AUTHORITY_DECIDED" }]
    ++ [transitionEntry .claimsResolved .authorityEvaluated] ++ [review]
    ++ [{ stage := "RECONCILE", eventType := "OUTCOME_RECORDED" }]
    ++ closingEntries (runReview rt c sources).isSome
    ++ [{ stage := "RECONCILE", eventType := "CASE_TERMINATED" }]

/-- **WHAT A RUN RECORDS**, entry by entry. -/
theorem run_entries (rt : Runtime R) (c : Case) (sources : List Source) (h : ¬ budget.Spent) :
    ∃ scanned review,
      (∀ e ∈ scanned, e.stage = "GUARDRAILS" ∧ e.toolName = none ∧
        e.evidenceIds ⊆ (runEvidence rt c sources).map Evidence.evidenceId) ∧
      (review.stage = "AUTHORISE" ∧ review.toolName = none ∧ review.evidenceIds = []) ∧
      runCasePipeline rt c sources budget =
        .ok (completedArtifacts rt c sources budget (runReview rt c sources)
          (runReport rt c sources) (runEntries rt c sources scanned review)) := by
  obtain ⟨entry, hentry, hreview⟩ := createReviewTask_records rt c
    (runAuthority_reasonCodes rt c sources)
  obtain ⟨report, scanned, hscanned, hguard⟩ := runGuardrails_records rt c
    (runEvidence rt c sources) (resolvedClaims rt c (runEvidence rt c sources))
  have hreport : runReport rt c sources = report := by
    rw [runReport, hguard]
  have hevidence : (candidatesOf c sources).map (settledEvidence rt c (candidatesOf c sources))
      = runEvidence rt c sources := rfl
  have hauthority : authorityRecord c (caseRuling rt c (runEvidence rt c sources))
      = runAuthority rt c sources := rfl
  have hfiled : reviewOf c (runAuthority rt c sources) = runReview rt c sources := rfl
  rw [hreport]
  refine ⟨scanned, entry, hscanned, hentry, ?_⟩
  simp (disch := decide) only [runCasePipeline, transition_of_allowed, Except.mapError, bind,
    Except.bind, pure, Except.pure, supervise_of_left h, foundResult_candidates,
    validateEvidence_eq, hevidence, resolveClaims, hguard, authoriseCase_resolved, hauthority,
    hreview, hfiled, reconcile, finish_eq, completedArtifacts, record_eq_recordAll,
    recordAll_recordAll, runEntries, List.append_assoc]

/-- The transitions among the entries of a run are the steps of its path. -/
theorem run_transitions (rt : Runtime R) (c : Case) (sources : List Source)
    (h : ¬ budget.Spent) :
    ∃ entries, runCasePipeline rt c sources budget =
        .ok (completedArtifacts rt c sources budget (runReview rt c sources)
          (runReport rt c sources) entries)
      ∧ (entries.filter fun e => e.stage = "STATE") =
        (steps (completedPath (runReview rt c sources).isSome)).map
          fun p => transitionEntry p.1 p.2 := by
  obtain ⟨scanned, review, hscanned, hreview, hrun⟩ := run_entries rt c sources h
  refine ⟨_, hrun, ?_⟩
  -- every other stage files under a name of its own
  have hout : ∀ {es : List Entry} (stage : String), (∀ e ∈ es, e.stage = stage) →
      stage ≠ "STATE" → (es.filter fun e => e.stage = "STATE") = [] := by
    intro es stage hes hne
    refine List.filter_eq_nil_iff.mpr fun e he => ?_
    rw [hes e he]
    simpa using hne
  have hinvestigated : ((retrievalEntries c sources
      ++ criticEntry c (candidatesOf c sources) :: handoffEntries).filter
        fun e => e.stage = "STATE") = [] := by
    refine hout "INVESTIGATE" ?_ (by decide)
    intro e he
    simp only [retrievalEntries, handoffEntries, List.mem_append, List.mem_cons,
      List.not_mem_nil, or_false] at he
    rcases he with (rfl | rfl) | rfl | rfl | rfl <;> rfl
  have hvalidated : ((validatedEntries rt c (candidatesOf c sources)).filter
      fun e => e.stage = "STATE") = [] := by
    refine hout "VALIDATE" ?_ (by decide)
    intro e he
    obtain ⟨s, -, rfl⟩ := List.mem_map.mp he
    rfl
  have hresolved : (((resolvedClaims rt c (runEvidence rt c sources)).map resolvedEntry).filter
      fun e => e.stage = "STATE") = [] := by
    refine hout "RESOLVE" ?_ (by decide)
    intro e he
    obtain ⟨cl, -, rfl⟩ := List.mem_map.mp he
    rfl
  have hscan : (scanned.filter fun e => e.stage = "STATE") = [] :=
    hout _ (fun e he => (hscanned e he).1) (by decide)
  have hentry : ([review].filter fun e => e.stage = "STATE") = [] :=
    hout _ (fun e he => List.mem_singleton.mp he ▸ hreview.1) (by decide)
  rw [runEntries]
  simp only [List.filter_append, hinvestigated, hvalidated, hresolved, hscan, hentry]
  cases (runReview rt c sources).isSome <;> rfl

/-- A run that the budget stopped has made one transition. -/
theorem blocked_transitions (rt : Runtime R) (c : Case) (sources : List Source)
    (h : budget.Spent) :
    ∃ a, runCasePipeline rt c sources budget = .ok a ∧
      Spells rt a.traceEvents [.created, .investigating] ∧
      a.terminationStatus = .controlBlocked := by
  refine ⟨_, run_of_spent h, ?_, rfl⟩
  show transitionsOf (TraceRecorder.record rt _ _).events = _
  rw [transitionsOf_record, transitionsOf_record, transitionsOf_opened]
  rfl

/-- **A RUN'S TRACE SPELLS A LEGAL PATH** to the state its status says. -/
theorem run_spells (h : runCasePipeline rt c sources budget = .ok a) :
    ∃ path, Legal path ∧ Spells rt a.traceEvents path ∧
      path.getLast?.bind endsAs = some a.terminationStatus := by
  by_cases hspent : budget.Spent
  · obtain ⟨a', hrun, hspells, hstatus⟩ := blocked_transitions rt c sources hspent
    obtain rfl := Except.ok.inj (h.symm.trans hrun)
    refine ⟨[.created, .investigating], ⟨rfl, ?_⟩, hspells, ?_⟩
    · decide
    · rw [hstatus]
      rfl
  · obtain ⟨entries, hrun, hentries⟩ := run_transitions rt c sources hspent
    obtain rfl := Except.ok.inj (h.symm.trans hrun)
    refine ⟨completedPath (runReview rt c sources).isSome, ?_, ?_, ?_⟩
    · constructor
      · rfl
      · cases (runReview rt c sources).isSome <;> decide
    · show transitionsOf ((openedTrace rt c.caseId).recordAll rt entries).events = _
      rw [transitionsOf_recordAll, transitionsOf_opened, hentries, List.nil_append, List.map_map]
      rfl
    · show _ = some (if (runReview rt c sources).isSome = true then _ else _)
      cases (runReview rt c sources).isSome <;> rfl

/-! ## Verification -/

theorem verifiable_recordAll {caseId : String} {t : TraceRecorder} (h : Verifiable rt caseId t)
    (es : List Entry) : Verifiable rt caseId (t.recordAll rt es) := by
  induction es generalizing t with
  | nil => exact h
  | cons e es ih => exact ih ⟨h.caseId_eq, h.numbered.record e, h.chained.record e⟩

/-- The events of a run are those of a recorder of its case. -/
theorem run_verifiable (h : runCasePipeline rt c sources budget = .ok a) :
    ∃ t, Verifiable rt c.caseId t ∧ t.events = a.traceEvents := by
  have hopened : Verifiable rt c.caseId (openedTrace rt c.caseId) :=
    verifiable_recordAll (verifiable_start rt c.caseId) [_]
  by_cases hspent : budget.Spent
  · rw [run_of_spent hspent] at h
    obtain rfl := Except.ok.inj h
    exact ⟨_, verifiable_recordAll hopened [_, _], rfl⟩
  · obtain ⟨report, entries, hrun, -⟩ := run_recorded rt c sources hspent
    obtain rfl := Except.ok.inj (h.symm.trans hrun)
    exact ⟨_, verifiable_recordAll hopened entries, rfl⟩

/-- The rows of a run, as the endpoint reads them, verify. -/
theorem verify_shown {s : Store R} {version : Nat}
    (h : runCasePipeline rt c sources budget = .ok a) (hshows : Shows s a version) :
    TraceStorage.verifyCaseTrace rt c.caseId
        (bySequence (rowsOf s.traceEvents TraceEvent.caseId c.caseId))
      = ⟨c.caseId, a.traceEvents.length, true⟩ := by
  obtain ⟨t, ht, hevents⟩ := run_verifiable h
  have hcase : a.case.caseId = c.caseId := congrArg Case.caseId (shaped_of_run h).2
  have htrace := hshows.trace
  rw [hcase] at htrace
  rw [← hevents]
  refine ht.verifyCaseTrace ?_
  rw [htrace, ht.persistedRows_eq, hevents]
  exact List.mergeSort_perm _ _

/-! ## Any history -/

/-- What a stored case is told by its own stored trace. -/
structure Told (rt : Runtime R) (s : Store R) (row : CaseRow) : Prop where
  /-- `GET /api/cases/{case_id}/trace/verify`. -/
  verifies : TraceStorage.verifyCaseTrace rt row.caseId
      (bySequence (rowsOf s.traceEvents TraceEvent.caseId row.caseId))
    = ⟨row.caseId, (rowsOf s.traceEvents TraceEvent.caseId row.caseId).length, true⟩
  /-- The stored transitions are a legal path to the state of the status. -/
  status : ∃ path final, Legal path ∧
    Spells rt (rowsOf s.traceEvents TraceEvent.caseId row.caseId) path ∧
    path.getLast?.bind endsAs = some final ∧ row.status = final.value

/-- **THE STORED TRACE TELLS THE STORED STATUS** and verifies, for every case in
    every store that runs of any cases and decisions lead to. -/
theorem stored_traces_tell (rt : Runtime R) (history : List Write) :
    ∀ row ∈ (run (write rt) Store.empty history).cases.rows,
      Told rt (run (write rt) Store.empty history) row := by
  intro row hrow
  have hs := current_run rt history
  obtain ⟨j, a, version, hrun, hcase, hshows⟩ :=
    hs.shown row.caseId (List.mem_map.mpr ⟨row, hrow, rfl⟩)
  obtain rfl : row = caseRow a version := by
    have hget : (run (write rt) Store.empty history).getCase row.caseId = some row :=
      Table.get_key hrow
    rw [← hcase, hshows.case] at hget
    exact (Option.some.inj hget).symm
  have hname : (caseRow a version).caseId = j.case.caseId :=
    congrArg Case.caseId (shaped_of_run hrun).2
  have htrace := hshows.trace
  constructor
  · have hverify := verify_shown hrun hshows
    rw [← hname] at hverify
    rw [hverify]
    exact congrArg (fun l => (⟨(caseRow a version).caseId, List.length l, true⟩ :
      TraceVerification)) htrace.symm
  · obtain ⟨path, hlegal, hspells, hfinal⟩ := run_spells hrun
    refine ⟨path, a.terminationStatus, hlegal, ?_, hfinal, rfl⟩
    show Spells rt (rowsOf _ _ a.case.caseId) path
    rw [htrace]
    exact hspells

/-- The hero case, stored. -/
theorem hero_stored :
    ∃ row, row ∈ (run (write (default : Runtime Float)) Store.empty [.run heroJob]).cases.rows := by
  obtain ⟨s', hpersist⟩ := (persist_fresh_iff (default : Runtime Float) (j := heroJob)
    owned_empty List.not_mem_nil (by decide)).mpr (noneStored_empty heroJob)
  obtain ⟨a, -, -, hpersisted, -⟩ := persisted_of_persist owned_empty hpersist
  have hrun : run (write (default : Runtime Float)) Store.empty [.run heroJob] = s' := by
    rw [run_cons, run_nil, write, step, hpersist]
    rfl
  rw [hrun]
  exact ⟨_, subset_of_insert hpersisted.cases List.mem_cons_self⟩

/-- The stored trace of the hero case. -/
theorem hero_told : ∃ row ∈ (run (write (default : Runtime Float)) Store.empty
      [.run heroJob]).cases.rows,
    Told default (run (write (default : Runtime Float)) Store.empty [.run heroJob]) row := by
  obtain ⟨row, hrow⟩ := hero_stored
  exact ⟨row, hrow, stored_traces_tell default [.run heroJob] row hrow⟩

end CaseTraces
