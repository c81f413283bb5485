import OutcomeAssurance.Investigation
import OutcomeAssurance.Resolution
import OutcomeAssurance.ReviewModel

/-! # The pipeline

    `app/services/authorise.py` and `app/services/workflow.py`: the authority
    gate, which reads claims only, and the stages from the case to its
    outcome.  Whatever a stage could raise is an error of the run. -/

namespace Pipeline

open CaseModel PyDict PyRuntime TraceChain Investigation Validation Resolution Guardrails
open ReviewModel (ReviewTask)

/-- The exceptions the stages can raise. -/
inductive PipelineError where
  | tool (e : ToolError)
  | transition (e : InvalidTransition)
  /-- `by_type[...]` of a type no claim has. -/
  | missingClaim (t : ClaimType)
  /-- `reason_codes[0]` of an empty list. -/
  | noReasonCode
  deriving DecidableEq, Repr

/-! ## The authority gate -/

def policyVersion : String := "authority-policy-v1"

/-- `by_type[t]`. -/
def byType (claims : List Claim) (t : ClaimType) : Except PipelineError Claim :=
  match (Dict.ofPairs (claims.map fun c => (c.claimType, c))).get t with
  | some c => .ok c
  | none => .error (.missingClaim t)

/-- Decision, action and reasons. -/
structure Ruling where
  decision : AuthorityDecision
  proposedAction : ProposedAction
  reasonCodes : List ReasonCode
  deriving DecidableEq, Repr

/-- The branches of the gate, before the escalation note. -/
def baseRuling (orderVerified : Claim) (majorFailure : ClaimStatus) : Ruling :=
  if orderVerified.status = .false then
    ⟨.requireHuman, .escalateBindingMismatch, orderVerified.reasonCodes⟩
  else
    match majorFailure with
    | .unknown =>
        ⟨.requireHuman, .requestFaultEvidenceAndEscalate,
          [.faultStatusUnknown, .refundRequiresReview]⟩
    | .true => ⟨.requireHuman, .escalateForRefund, [.majorFailureConfirmed, .refundRequiresReview]⟩
    | .false => ⟨.deny, .denyRefund, [.majorFailureNotEstablished]⟩

def ruling (orderVerified : Claim) (majorFailure escalation : ClaimStatus) : Ruling :=
  let base := baseRuling orderVerified majorFailure
  if (escalation = .true ∨ escalation = .unknown) ∧ base.decision = .requireHuman then
    { base with reasonCodes := base.reasonCodes ++ [.escalationPathAvailable] }
  else base

def authorityRecord (c : Case) (r : Ruling) : AuthorityRecord where
  authorityId := "AUTH-" ++ c.caseId
  caseId := c.caseId
  proposedAction := r.proposedAction
  decision := r.decision
  reasonCodes := r.reasonCodes
  requiredRole := "retail-operations"
  policyVersion := policyVersion

variable {R : Type} (rt : Runtime R)

/-- `authorise_case`. -/
def authoriseCase (c : Case) (claims : List Claim) (trace : TraceRecorder) :
    Except PipelineError (AuthorityRecord × TraceRecorder) := do
  let orderVerified ← byType claims .orderAndSellerVerified
  let majorFailure ← byType claims .majorFailureEstablished
  let escalation ← byType claims .marketplaceEscalationPathSupported
  return (authorityRecord c (ruling orderVerified majorFailure.status escalation.status),
    trace.record rt { stage := "AUTHORISE", eventType := "AUTHORITY_DECIDED" })

/-! ## Review and outcome -/

/-- The reason a review is filed under first. -/
def primaryReason (codes : List ReasonCode) : Option ReasonCode :=
  if .faultStatusUnknown ∈ codes then some .missingFaultEvidence else codes.head?

def reviewTask (c : Case) (codes : List ReasonCode) (primary : ReasonCode) : ReviewTask where
  reviewId := "REVIEW-" ++ c.caseId
  caseId := c.caseId
  reasonCodes := (primary :: codes.filter (· ≠ primary)).map ReasonCode.name
  assignedRole := "retail-operations"

/-- `_create_review_task`. -/
def createReviewTask (c : Case) (authority : AuthorityRecord) (trace : TraceRecorder) :
    Except PipelineError (Option ReviewTask × TraceRecorder) :=
  if authority.decision ≠ .requireHuman then
    .ok (none, trace.record rt { stage := "AUTHORISE", eventType := "REVIEW_NOT_REQUIRED" })
  else
    match primaryReason authority.reasonCodes with
    | none => .error .noReasonCode
    | some primary =>
        .ok (some (reviewTask c authority.reasonCodes primary),
          trace.record rt { stage := "AUTHORISE", eventType := "REVIEW_TASK_CREATED" })

/-- The outcome of a first attempt. -/
def firstOutcome (c : Case) (action : ProposedAction) (observed reconciliation : String) :
    Outcome where
  outcomeId := "OUTCOME-" ++ c.caseId ++ "-1"
  caseId := c.caseId
  attemptId := "ATTEMPT-" ++ c.caseId ++ "-1"
  intendedAction := action
  observedResult := observed
  reconciliationStatus := reconciliation
  mismatchReason := none

/-- `_reconcile`. -/
def reconcile (c : Case) (authority : AuthorityRecord) (trace : TraceRecorder) :
    Outcome × TraceRecorder :=
  (firstOutcome c authority.proposedAction "PENDING_HUMAN_REVIEW" "PENDING",
    trace.record rt { stage := "RECONCILE", eventType := "OUTCOME_RECORDED" })

/-! ## The run -/

/-- `CaseArtifacts`. -/
structure CaseArtifacts (R : Type) where
  case : Case
  snapshots : List SourceSnapshot := []
  evidence : List (Evidence R) := []
  claims : List Claim := []
  authority : AuthorityRecord
  review : Option ReviewTask := none
  outcome : Outcome
  terminationStatus : TerminationStatus
  traceEvents : List TraceEvent
  agentRuns : List AgentRun := []
  agentSteps : List AgentStep := []
  agentHandoffs : List AgentHandoff := []
  guardrailReport : Option (GuardrailReport R) := none

/-- The status of the claim of a type. -/
def CaseArtifacts.statusOf (a : CaseArtifacts R) (t : ClaimType) : Option ClaimStatus :=
  (a.claims.find? fun cl => cl.claimType = t).map Claim.status

/-- The trace of a run up to its investigation. -/
def openedTrace (caseId : String) : TraceRecorder :=
  (TraceRecorder.start rt caseId).record rt { stage := "CASE", eventType := "CASE_CREATED" }

/-- What a run stopped by the budget returns. -/
def blockedArtifacts (c : Case) (e : BudgetExceeded) (agentRuns : List AgentRun)
    (trace : TraceRecorder) : CaseArtifacts R where
  case := c
  authority := authorityRecord c ⟨.requireHuman, .none, [.budgetExceeded, e.resource.reason]⟩
  outcome := firstOutcome c .none "BUDGET_EXCEEDED" "NOT_ATTEMPTED"
  terminationStatus := .controlBlocked
  traceEvents := (trace.record rt {
    stage := "INVESTIGATE", eventType := "BUDGET_EXCEEDED"
    toolName := some "fixture_lexical_search" }).events
  agentRuns := agentRuns

/-- The transitions after the review stage, with the status a run ends with. -/
def finish (review : Option ReviewTask) (status : CaseStatus) (trace : TraceRecorder) :
    Except InvalidTransition (TerminationStatus × TraceRecorder) :=
  match review with
  | some _ => do
      let (_, trace) ← trace.transition rt status .needsReview
      return (.needsReview, trace)
  | none => do
      let (status, trace) ← trace.transition rt status .readyToReconcile
      let (_, trace) ← trace.transition rt status .completed
      return (.completed, trace)

/-- `run_case_pipeline`, on a case and sources already loaded. -/
def runCasePipeline (c : Case) (sources : List Source) (budget : RunBudget) :
    Except PipelineError (CaseArtifacts R) := do
  let (status, trace) ←
    ((openedTrace rt c.caseId).transition rt .created .investigating).mapError .transition
  match ← (supervise rt c sources trace budget).mapError .tool with
  -- a run out of budget ends here, without evidence, claims or a review
  | (.blocked e agentRuns, trace) => return blockedArtifacts rt c e agentRuns trace
  | (.found investigation, trace) =>
      let (snapshots, evidence, trace) := validateEvidence rt c investigation.candidates trace
      let (status, trace) ← (trace.transition rt status .evidenceValidated).mapError .transition
      let (claims, trace) := resolveClaims rt c evidence trace
      let (status, trace) ← (trace.transition rt status .claimsResolved).mapError .transition
      let (report, trace) := runGuardrails rt c evidence claims trace
      let (authority, trace) ← authoriseCase rt c claims trace
      let (status, trace) ← (trace.transition rt status .authorityEvaluated).mapError .transition
      let (review, trace) ← createReviewTask rt c authority trace
      let (outcome, trace) := reconcile rt c authority trace
      let (termination, trace) ← (finish rt review status trace).mapError .transition
      return {
        case := c
        snapshots := snapshots
        evidence := evidence
        claims := claims
        authority := authority
        review := review
        outcome := outcome
        terminationStatus := termination
        traceEvents := (trace.record rt {
          stage := "RECONCILE", eventType := "CASE_TERMINATED" }).events
        agentRuns := investigation.agentRuns
        agentSteps := investigation.agentSteps
        agentHandoffs := investigation.agentHandoffs
        guardrailReport := some report }

/-! ## The gate on resolved claims -/

/-- A type that one claim has is looked up as that claim. -/
theorem byType_of_mem {claims : List Claim} {cl : Claim} {t : ClaimType}
    (hdistinct : (claims.map Claim.claimType).Nodup) (hcl : cl ∈ claims)
    (ht : cl.claimType = t) : byType claims t = .ok cl := by
  obtain ⟨before, after, rfl⟩ := List.append_of_mem hcl
  have hget : (Dict.ofPairs ((before ++ cl :: after).map fun c => (c.claimType, c))).get t
      = some cl := by
    refine Dict.get_ofPairs.mpr ⟨before.map fun c => (c.claimType, c),
      after.map fun c => (c.claimType, c), by simp [ht], ?_⟩
    intro p hp heq
    obtain ⟨cl', hcl', rfl⟩ := List.mem_map.mp hp
    rw [List.map_append, List.map_cons] at hdistinct
    -- a later claim of the type would come twice
    have hout := (List.nodup_cons.mp (List.nodup_append.mp hdistinct).2.1).1
    exact hout (List.mem_map.mpr ⟨cl', hcl', heq.trans ht.symm⟩)
  rw [byType, hget]

/-- The claim about order, seller and product. -/
def orderClaim (c : Case) : Claim :=
  either c .orderAndSellerVerified (bindingMatch c) .false
    [.orderSellerProductMatchRegistry] (bindingReasons c) []

/-- The ruling on a case whose evidence is as given. -/
def caseRuling (c : Case) (evidence : List (Evidence R)) : Ruling :=
  let escalation := (admittedEvidence evidence).filter fun e => e.sourceId = "SRC-KOGAN-GUARANTEE"
  ruling (orderClaim c) (faultVerdict rt evidence).status
    (if !escalation.isEmpty then .true else .unknown)

variable {rt}

theorem authoriseCase_resolved (c : Case) (evidence : List (Evidence R)) (trace : TraceRecorder) :
    authoriseCase rt c (resolvedClaims rt c evidence) trace =
      .ok (authorityRecord c (caseRuling rt c evidence),
        trace.record rt { stage := "AUTHORISE", eventType := "AUTHORITY_DECIDED" }) := by
  have hdistinct : ((resolvedClaims rt c evidence).map Claim.claimType).Nodup := by
    rw [resolvedClaims_types]
    decide
  have horder : byType (resolvedClaims rt c evidence) .orderAndSellerVerified
      = .ok (orderClaim c) :=
    byType_of_mem hdistinct (by simp [resolvedClaims, orderClaim]) rfl
  obtain ⟨major, hmajorMem, hmajorType, hmajorStatus⟩ : ∃ cl ∈ resolvedClaims rt c evidence,
      cl.claimType = .majorFailureEstablished ∧
        cl.status = (faultVerdict rt evidence).status :=
    ⟨_, (mem_majorFailure.mpr rfl).1, rfl, rfl⟩
  obtain ⟨escalation, hescMem, hescType, hescStatus⟩ : ∃ cl ∈ resolvedClaims rt c evidence,
      cl.claimType = .marketplaceEscalationPathSupported ∧ cl.status =
        if !((admittedEvidence evidence).filter
          fun e => e.sourceId = "SRC-KOGAN-GUARANTEE").isEmpty then .true else .unknown := by
    refine ⟨(resolvedClaims rt c evidence).get ⟨3, by simp [resolvedClaims]⟩, ?_, rfl, rfl⟩
    exact List.get_mem _ _
  rw [authoriseCase, horder, byType_of_mem hdistinct hmajorMem hmajorType,
    byType_of_mem hdistinct hescMem hescType]
  show Except.ok _ = Except.ok _
  rw [hmajorStatus, hescStatus]
  rfl

theorem ruling_decision (orderVerified : Claim) (majorFailure escalation : ClaimStatus) :
    (ruling orderVerified majorFailure escalation).decision =
      (baseRuling orderVerified majorFailure).decision := by
  rw [ruling]
  split <;> rfl

theorem ruling_reasonCodes {orderVerified : Claim} {majorFailure : ClaimStatus}
    (h : orderVerified.status = .false → orderVerified.reasonCodes ≠ [])
    (escalation : ClaimStatus) :
    (ruling orderVerified majorFailure escalation).reasonCodes ≠ [] := by
  have hbase : (baseRuling orderVerified majorFailure).reasonCodes ≠ [] := by
    by_cases hstatus : orderVerified.status = .false
    · rw [baseRuling.eq_def, if_pos hstatus]
      exact h hstatus
    · rw [baseRuling.eq_def, if_neg hstatus]
      cases majorFailure <;> exact List.cons_ne_nil _ _
  rw [ruling]
  split
  · exact List.append_ne_nil_of_left_ne_nil hbase _
  · exact hbase

theorem bindingReasons_ne_nil (c : Case) : bindingReasons c ≠ [] := by
  rw [bindingReasons]
  split
  · exact List.cons_ne_nil _ _
  · assumption

/-- Every ruling gives a reason. -/
theorem caseRuling_reasonCodes (c : Case) (evidence : List (Evidence R)) :
    (caseRuling rt c evidence).reasonCodes ≠ [] := by
  refine ruling_reasonCodes (fun h => ?_) _
  cases hmatch : bindingMatch c with
  | true => simp [orderClaim, either, claim, hmatch] at h
  | false => simpa [orderClaim, either, claim, hmatch] using bindingReasons_ne_nil c

/-- The decision of a ruling: DENY only for a verified order and a fault
    verdict of FALSE. -/
theorem caseRuling_decision (c : Case) (evidence : List (Evidence R)) :
    (caseRuling rt c evidence).decision =
      if bindingMatch c = true ∧ (faultVerdict rt evidence).status = .false then .deny
      else .requireHuman := by
  rw [caseRuling, ruling_decision, baseRuling.eq_def]
  cases hmatch : bindingMatch c with
  | true =>
      have hstatus : (orderClaim c).status = .true := by
        simp [orderClaim, either, claim, hmatch]
      rw [hstatus]
      cases (faultVerdict rt evidence).status <;> rfl
  | false =>
      have hstatus : (orderClaim c).status = .false := by
        simp [orderClaim, either, claim, hmatch]
      rw [hstatus]
      rfl

/-! ## What a run returns -/

/-- The review of an authority record. -/
def reviewOf (c : Case) (authority : AuthorityRecord) : Option ReviewTask :=
  if authority.decision = .requireHuman then
    (primaryReason authority.reasonCodes).map (reviewTask c authority.reasonCodes)
  else none

theorem primaryReason_of_ne_nil {codes : List ReasonCode} (h : codes ≠ []) :
    ∃ primary, primaryReason codes = some primary := by
  rw [primaryReason]
  split
  · exact ⟨_, rfl⟩
  · exact Option.isSome_iff_exists.mp (by simpa using h)

/-- A review is filed exactly when a human is required. -/
theorem reviewOf_isSome {c : Case} {authority : AuthorityRecord}
    (h : authority.reasonCodes ≠ []) :
    (reviewOf c authority).isSome = true ↔ authority.decision = .requireHuman := by
  obtain ⟨primary, hprimary⟩ := primaryReason_of_ne_nil h
  rw [reviewOf, hprimary]
  by_cases hhuman : authority.decision = .requireHuman
  · simp [hhuman]
  · simp [hhuman]

theorem mem_reviewOf {c : Case} {authority : AuthorityRecord} {task : ReviewTask}
    (h : task ∈ reviewOf c authority) :
    ∃ primary, primaryReason authority.reasonCodes = some primary ∧
      task = reviewTask c authority.reasonCodes primary := by
  rw [reviewOf] at h
  split at h
  · obtain ⟨primary, hprimary, heq⟩ := Option.map_eq_some_iff.mp h
    exact ⟨primary, hprimary, heq.symm⟩
  · cases h

/-- The review stage of a ruling with a reason. -/
theorem createReviewTask_of_reason (rt : Runtime R) (c : Case) {authority : AuthorityRecord}
    (h : authority.reasonCodes ≠ []) :
    ∃ entry, entry.stage = "AUTHORISE" ∧ ∀ trace,
      createReviewTask rt c authority trace =
        .ok (reviewOf c authority, trace.record rt entry) := by
  obtain ⟨primary, hprimary⟩ := primaryReason_of_ne_nil h
  by_cases hhuman : authority.decision = .requireHuman
  · refine ⟨{ stage := "AUTHORISE", eventType := "REVIEW_TASK_CREATED" }, rfl, fun trace => ?_⟩
    rw [createReviewTask, if_neg (not_not.mpr hhuman), reviewOf, if_pos hhuman, hprimary]
    rfl
  · refine ⟨{ stage := "AUTHORISE", eventType := "REVIEW_NOT_REQUIRED" }, rfl, fun trace => ?_⟩
    rw [createReviewTask, if_pos hhuman, reviewOf, if_neg hhuman]

theorem finish_of_review (rt : Runtime R) (review : Option ReviewTask) :
    ∃ entries, (∀ e ∈ entries, e.stage = "STATE") ∧ ∀ trace,
      finish rt review .authorityEvaluated trace =
        .ok (if review.isSome then .needsReview else .completed, trace.recordAll rt entries) := by
  cases review with
  | none =>
      refine ⟨[transitionEntry .authorityEvaluated .readyToReconcile,
        transitionEntry .readyToReconcile .completed], ?_, fun trace => ?_⟩
      · intro e he
        rcases List.mem_pair.mp he with rfl | rfl <;> rfl
      · simp (disch := decide) only [finish, transition_of_allowed, bind, Except.bind]
        rfl
  | some task =>
      refine ⟨[transitionEntry .authorityEvaluated .needsReview], ?_, fun trace => ?_⟩
      · intro e he
        obtain rfl := List.mem_singleton.mp he
        rfl
      · rw [finish, transition_of_allowed trace (by decide)]
        rfl

/-- The evidence a run with a tool call left ends with. -/
def runEvidence (rt : Runtime R) (c : Case) (sources : List Source) : List (Evidence R) :=
  (candidatesOf c sources).map (settledEvidence rt c (candidatesOf c sources))

/-- Complete artifacts, with the trace of the given entries. -/
def completedArtifacts (rt : Runtime R) (c : Case) (sources : List Source) (budget : RunBudget)
    (review : Option ReviewTask) (report : GuardrailReport R) (entries : List Entry) :
    CaseArtifacts R :=
  let evidence := runEvidence rt c sources
  let authority := authorityRecord c (caseRuling rt c evidence)
  let found := foundResult rt c sources budget
  { case := c
    snapshots := (candidatesOf c sources).map snapshotOf
    evidence := evidence
    claims := resolvedClaims rt c evidence
    authority := authority
    review := review
    outcome := firstOutcome c authority.proposedAction "PENDING_HUMAN_REVIEW" "PENDING"
    terminationStatus := if review.isSome then .needsReview else .completed
    traceEvents := ((openedTrace rt c.caseId).recordAll rt entries).events
    agentRuns := found.agentRuns
    agentSteps := found.agentSteps
    agentHandoffs := found.agentHandoffs
    guardrailReport := some report }

/-- The ruling of a complete run, as it is filed. -/
def runAuthority (rt : Runtime R) (c : Case) (sources : List Source) : AuthorityRecord :=
  authorityRecord c (caseRuling rt c (runEvidence rt c sources))

/-- The review of a complete run. -/
def runReview (rt : Runtime R) (c : Case) (sources : List Source) : Option ReviewTask :=
  reviewOf c (runAuthority rt c sources)

theorem runAuthority_reasonCodes (rt : Runtime R) (c : Case) (sources : List Source) :
    (runAuthority rt c sources).reasonCodes ≠ [] :=
  caseRuling_reasonCodes c _

/-- The report that a complete run files, and the layout of its trace: only
    validation records under its stage. -/
structure Recorded (rt : Runtime R) (c : Case) (sources : List Source)
    (report : GuardrailReport R) (entries : List Entry) : Prop where
  reportId_eq : report.reportId = "GUARDRAIL-" ++ c.caseId
  reportCase_eq : report.caseId = c.caseId
  findings_eq : report.inputFindings = c.event.items.flatMap (eventFindings rt)
    ++ (runEvidence rt c sources).flatMap (evidenceFindings rt)
  entries_eq : ∃ before after,
    entries = before ++ validatedEntries rt c (candidatesOf c sources) ++ after
      ∧ ∀ e ∈ before ++ after, e.stage ≠ "VALIDATE"

/-- The guardrail report of a complete run; it does not look at the trace. -/
def runReport (rt : Runtime R) (c : Case) (sources : List Source) : GuardrailReport R :=
  let evidence := runEvidence rt c sources
  (runGuardrails rt c evidence (resolvedClaims rt c evidence) (openedTrace rt c.caseId)).1

/-- A run with a tool call left files the report of its evidence and claims. -/
theorem run_reported (rt : Runtime R) (c : Case) (sources : List Source) {budget : RunBudget}
    (h : ¬ budget.Spent) :
    ∃ entries, runCasePipeline rt c sources budget =
        .ok (completedArtifacts rt c sources budget (runReview rt c sources)
          (runReport rt c sources) entries)
      ∧ Recorded rt c sources (runReport rt c sources) entries := by
  obtain ⟨entry, hstage, hreview⟩ := createReviewTask_of_reason rt c
    (runAuthority_reasonCodes rt c sources)
  obtain ⟨closing, hclosing, hfinish⟩ := finish_of_review rt (runReview rt c sources)
  obtain ⟨report, scanned, hid, hcase, hfindings, hscanned, hguard⟩ := runGuardrails_eq rt c
    (runEvidence rt c sources) (resolvedClaims rt c (runEvidence rt c sources))
  have hreport : runReport rt c sources = report := by
    rw [runReport, hguard]
  have hevidence : (candidatesOf c sources).map (settledEvidence rt c (candidatesOf c sources))
      = runEvidence rt c sources := rfl
  have hauthority : authorityRecord c (caseRuling rt c (runEvidence rt c sources))
      = runAuthority rt c sources := rfl
  have hfiled : reviewOf c (runAuthority rt c sources) = runReview rt c sources := rfl
  -- the entries, stage by stage
  let before := [transitionEntry .created .investigating]
    ++ (retrievalEntries c sources ++ criticEntry c (candidatesOf c sources) :: handoffEntries)
  let after := [transitionEntry .investigating .evidenceValidated]
    ++ (resolvedClaims rt c (runEvidence rt c sources)).map resolvedEntry
    ++ [transitionEntry .evidenceValidated .claimsResolved] ++ scanned
    ++ [{ stage := "AUTHORISE", eventType := "AUTHORITY_DECIDED" }]
    ++ [transitionEntry .claimsResolved .authorityEvaluated] ++ [entry]
    ++ [{ stage := "RECONCILE", eventType := "OUTCOME_RECORDED" }] ++ closing
    ++ [{ stage := "RECONCILE", eventType := "CASE_TERMINATED" }]
  rw [hreport]
  refine ⟨before ++ validatedEntries rt c (candidatesOf c sources) ++ after, ?_,
    hid, hcase, hfindings, before, after, rfl, ?_⟩
  · simp (disch := decide) only [runCasePipeline, transition_of_allowed, Except.mapError, bind,
      Except.bind, pure, Except.pure, supervise_of_left h, foundResult_candidates,
      validateEvidence_eq, hevidence, resolveClaims, hguard, authoriseCase_resolved, hauthority,
      hreview, hfiled, reconcile, hfinish, completedArtifacts, record_eq_recordAll,
      recordAll_recordAll, before, after, List.append_assoc]
  · have hscan : ∀ e ∈ scanned, e.stage ≠ "VALIDATE" := fun e he => by
      rw [hscanned e he]
      decide
    have hclose : ∀ e ∈ closing, e.stage ≠ "VALIDATE" := fun e he => by
      rw [hclosing e he]
      decide
    have hentry : entry.stage ≠ "VALIDATE" := by
      rw [hstage]
      decide
    simp only [before, after, retrievalEntries, handoffEntries, List.forall_mem_append,
      List.forall_mem_cons, List.forall_mem_map, List.not_mem_nil, false_implies, implies_true,
      and_true]
    have hcritic : (criticEntry c (candidatesOf c sources)).stage ≠ "VALIDATE" :=
      (by decide : "INVESTIGATE" ≠ "VALIDATE")
    have hresolve : ∀ cl ∈ resolvedClaims rt c (runEvidence rt c sources),
        (resolvedEntry cl).stage ≠ "VALIDATE" :=
      fun _ _ => (by decide : "RESOLVE" ≠ "VALIDATE")
    refine ⟨⟨by decide, ⟨by decide, by decide⟩, hcritic, by decide, by decide⟩, ?_⟩
    refine ⟨⟨⟨⟨⟨⟨⟨⟨⟨by decide, hresolve⟩, by decide⟩, hscan⟩, by decide⟩, by decide⟩, hentry⟩,
      by decide⟩, hclose⟩, by decide⟩

/-- **NO STAGE RAISES**: a run with a tool call left returns complete
    artifacts. -/
theorem run_recorded (rt : Runtime R) (c : Case) (sources : List Source) {budget : RunBudget}
    (h : ¬ budget.Spent) :
    ∃ report entries, runCasePipeline rt c sources budget =
        .ok (completedArtifacts rt c sources budget (runReview rt c sources) report entries)
      ∧ Recorded rt c sources report entries :=
  ⟨_, run_reported rt c sources h⟩

/-- The review and the report that a complete run files. -/
structure Filed (rt : Runtime R) (c : Case) (sources : List Source) (review : Option ReviewTask)
    (report : GuardrailReport R) : Prop where
  review_iff : review.isSome = true ↔
    (caseRuling rt c (runEvidence rt c sources)).decision = .requireHuman
  review_eq : ∀ task ∈ review, ∃ primary,
    primaryReason (caseRuling rt c (runEvidence rt c sources)).reasonCodes = some primary ∧
    task = reviewTask c (caseRuling rt c (runEvidence rt c sources)).reasonCodes primary
  reportId_eq : report.reportId = "GUARDRAIL-" ++ c.caseId
  reportCase_eq : report.caseId = c.caseId

/-- The review and the report of a run with a tool call left. -/
theorem run_of_left (rt : Runtime R) (c : Case) (sources : List Source) {budget : RunBudget}
    (h : ¬ budget.Spent) :
    ∃ review report entries, runCasePipeline rt c sources budget =
        .ok (completedArtifacts rt c sources budget review report entries)
      ∧ Filed rt c sources review report := by
  obtain ⟨report, entries, hrun, hrecorded⟩ := run_recorded rt c sources h
  exact ⟨runReview rt c sources, report, entries, hrun,
    reviewOf_isSome (runAuthority_reasonCodes rt c sources), fun _ htask => mem_reviewOf htask,
    hrecorded.reportId_eq, hrecorded.reportCase_eq⟩

/-- A run without a tool call left is stopped. -/
theorem run_of_spent {c : Case} {sources : List Source} {budget : RunBudget}
    (h : budget.Spent) :
    runCasePipeline rt c sources budget =
      .ok (blockedArtifacts rt c ⟨.toolCalls, budget.maxToolCalls⟩
        (blockedRuns rt c budget.consumeToolCall.2 ⟨.toolCalls, budget.maxToolCalls⟩)
        ((openedTrace rt c.caseId).record rt (transitionEntry .created .investigating))) := by
  simp (disch := decide) only [runCasePipeline, transition_of_allowed, Except.mapError, bind,
    Except.bind, supervise_of_spent h]
  rfl

/-- What some result of a run satisfies, its result does. -/
theorem exists_run_iff {c : Case} {sources : List Source} {budget : RunBudget}
    {a : CaseArtifacts R} {P : CaseArtifacts R → Prop}
    (h : runCasePipeline rt c sources budget = .ok a) :
    (∃ a', runCasePipeline rt c sources budget = .ok a' ∧ P a') ↔ P a := by
  constructor
  · rintro ⟨a', hrun, hP⟩
    obtain rfl := Except.ok.inj (h.symm.trans hrun)
    exact hP
  · intro hP
    exact ⟨a, h, hP⟩

end Pipeline
