import OutcomeAssurance.CaseApi
import OutcomeAssurance.RedactedDisplay
import OutcomeAssurance.TraceStorage

/-! # The reading endpoints

    The `GET` endpoints of `app/api.py` over the case store, and the summary of
    `run_case_workflow`.  None of them asks for a token.  SQLite selects the
    evidence of a case through `ix_evidence_case_source`, so in the order of the
    source ids, and the rows of every other table as they are stored. -/

namespace CaseQueries

open KeyedTable CaseModel PyDict PyRuntime TraceChain Investigation Pipeline CaseStore CaseClock
open CaseIsolation CaseApi ReviewModel ChainVerifier TraceStorage RedactedDisplay

variable {R : Type} (clock : Clock)

/-! ## What is shown of the rows -/

/-- `_case_to_dict`. -/
structure ShownCase where
  caseId : String
  orderRef : String
  sellerRef : String
  productRef : String
  riskBand : String
  status : String
  stateVersion : Nat
  sourceRefs : List String
  createdAt : Instant
  deriving DecidableEq, Repr

def ShownCase.of (c : CaseRow) : ShownCase where
  caseId := c.caseId
  orderRef := c.orderRef
  sellerRef := c.sellerRef
  productRef := c.productRef
  riskBand := c.riskBand
  status := c.status
  stateVersion := c.stateVersion
  sourceRefs := c.sourceRefs
  createdAt := clock .caseCreatedAt c.caseId

/-- An item of `get_case_claims`. -/
structure ShownClaim where
  claimId : String
  claimType : ClaimType
  status : ClaimStatus
  evidenceIds : List String
  counterEvidenceIds : List String
  ruleVersion : String
  reasonCodes : List ReasonCode
  deriving DecidableEq, Repr

def ShownClaim.of (c : Claim) : ShownClaim where
  claimId := c.claimId
  claimType := c.claimType
  status := c.status
  evidenceIds := c.evidenceIds
  counterEvidenceIds := c.counterEvidenceIds
  ruleVersion := c.ruleVersion
  reasonCodes := c.reasonCodes

/-- An item of `get_case_authority`. -/
structure ShownAuthority where
  authorityId : String
  proposedAction : ProposedAction
  decision : AuthorityDecision
  reasonCodes : List ReasonCode
  requiredRole : String
  policyVersion : String
  deriving DecidableEq, Repr

def ShownAuthority.of (a : AuthorityRecord) : ShownAuthority where
  authorityId := a.authorityId
  proposedAction := a.proposedAction
  decision := a.decision
  reasonCodes := a.reasonCodes
  requiredRole := a.requiredRole
  policyVersion := a.policyVersion

/-- An item of `get_case_trace`. -/
structure ShownTraceEvent where
  sequence : Int
  stage : String
  eventType : String
  toolName : Option String
  evidenceIds : List String
  argumentHash : Option String
  resultHash : Option String
  stateBeforeHash : Option String
  stateAfterHash : Option String
  timestamp : Instant
  deriving DecidableEq, Repr

def ShownTraceEvent.of (t : TraceEvent) : ShownTraceEvent where
  sequence := t.sequence
  stage := t.stage
  eventType := t.eventType
  toolName := t.toolName
  evidenceIds := t.evidenceIds
  argumentHash := t.argumentHash
  resultHash := t.resultHash
  stateBeforeHash := t.stateBeforeHash
  stateAfterHash := t.stateAfterHash
  timestamp := clock .traceTimestamp t.traceId

/-- A step in `get_case_agent_runs`. -/
structure ShownStep where
  sequence : Nat
  stepType : String
  toolName : Option String
  candidateEvidenceIds : List String
  timestamp : Instant
  deriving DecidableEq, Repr

def ShownStep.of (s : AgentStep) : ShownStep where
  sequence := s.sequence
  stepType := s.stepType
  toolName := s.toolName
  candidateEvidenceIds := s.candidateEvidenceIds
  timestamp := clock .stepTimestamp s.stepId

/-- A row of `agent_runs` with its clock columns, as it is loaded. -/
structure LoadedRun where
  run : AgentRun
  startedAt : Instant
  endedAt : Instant
  deriving DecidableEq, Repr

def LoadedRun.of (r : AgentRun) : LoadedRun where
  run := r
  startedAt := clock .runStartedAt r.agentRunId
  endedAt := clock .runEndedAt r.agentRunId

/-- `order_by(AgentRunORM.started_at)`. -/
def byStart (runs : List LoadedRun) : List LoadedRun :=
  runs.mergeSort fun a b => a.startedAt ≤ b.startedAt

/-- An item of `get_case_agent_runs`. -/
structure ShownAgentRun where
  agentRunId : String
  agentId : String
  parentRunId : Option String
  stage : String
  maxToolCalls : Int
  maxSteps : Int
  toolCallsUsed : Nat
  stepsUsed : Nat
  terminationStatus : Option TerminationStatus
  terminationReasonCodes : List ReasonCode
  startedAt : Instant
  endedAt : Instant
  steps : List ShownStep
  deriving DecidableEq, Repr

/-- A loaded run with its steps, `r.steps` in the order of their sequence. -/
def ShownAgentRun.of (steps : List AgentStep) (r : LoadedRun) : ShownAgentRun where
  agentRunId := r.run.agentRunId
  agentId := r.run.agentId
  parentRunId := r.run.parentRunId
  stage := r.run.stage
  maxToolCalls := r.run.maxToolCalls
  maxSteps := r.run.maxSteps
  toolCallsUsed := r.run.toolCallsUsed
  stepsUsed := r.run.stepsUsed
  terminationStatus := r.run.terminationStatus
  terminationReasonCodes := r.run.terminationReasonCodes
  startedAt := r.startedAt
  endedAt := r.endedAt
  steps :=
    ((steps.filter fun s => s.agentRunId = r.run.agentRunId).mergeSort
      fun a b => a.sequence ≤ b.sequence).map (.of clock)

/-- `_review_to_dict`. -/
structure ShownReview where
  review : ReviewTask
  createdAt : Instant
  deriving DecidableEq, Repr

def ShownReview.of (r : ReviewTask) : ShownReview where
  review := r
  createdAt := clock .reviewCreatedAt r.reviewId

/-- What `get_case_guardrail_report` returns. -/
structure ShownReport (R : Type) where
  report : GuardrailReport R
  createdAt : Instant

def ShownReport.of (r : GuardrailReport R) : ShownReport R where
  report := r
  createdAt := clock .reportCreatedAt r.reportId

/-- `order_by(GuardrailReportORM.created_at.desc()).first()`. -/
def latestReport (reports : List (GuardrailReport R)) : Option (ShownReport R) :=
  ((reports.map (.of clock)).mergeSort fun a b => b.createdAt ≤ a.createdAt).head?

/-! ## The summary of a run -/

structure ClaimSummary where
  claimType : ClaimType
  status : ClaimStatus
  reasonCodes : List ReasonCode
  evidenceIds : List String
  deriving DecidableEq, Repr

structure EvidenceSummary where
  evidenceId : String
  sourceId : String
  authorityStatus : Validity
  entityBindingStatus : Validity
  supportStatus : SupportStatus
  validationReasons : List ReasonCode
  deriving DecidableEq, Repr

/-- What `run_case_workflow` returns. -/
structure WorkflowSummary where
  caseId : String
  terminationStatus : TerminationStatus
  authorityDecision : AuthorityDecision
  proposedAction : ProposedAction
  authorityReasonCodes : List ReasonCode
  reviewReasonCode : Option String
  reviewOwner : Option String
  claims : List ClaimSummary
  evidence : List EvidenceSummary
  /-- Intended action, observed result and reconciliation status. -/
  outcome : ProposedAction × String × String
  traceEvents : Nat
  /-- Sequence, stage and event type. -/
  trace : List (Int × String × String)
  deriving DecidableEq, Repr

/-- The body of `run_case_workflow`, on the artifacts. -/
def summaryOf (a : CaseArtifacts R) : WorkflowSummary where
  caseId := a.case.caseId
  terminationStatus := a.terminationStatus
  authorityDecision := a.authority.decision
  proposedAction := a.authority.proposedAction
  authorityReasonCodes := a.authority.reasonCodes
  -- a review always has a reason code, so the source's `[0]` does not raise
  reviewReasonCode := a.review.bind fun r => r.reasonCodes.head?
  reviewOwner := a.review.map ReviewTask.assignedRole
  claims := a.claims.map fun c => ⟨c.claimType, c.status, c.reasonCodes, c.evidenceIds⟩
  evidence := a.evidence.map fun e =>
    ⟨e.evidenceId, e.sourceId, e.authorityStatus, e.entityBindingStatus, e.supportStatus,
      e.validationReasons⟩
  outcome :=
    (a.outcome.intendedAction, a.outcome.observedResult, a.outcome.reconciliationStatus)
  traceEvents := a.traceEvents.length
  trace := a.traceEvents.map fun t => (t.sequence, t.stage, t.eventType)

/-! ## The endpoints -/

inductive Query where
  /-- `GET /case-demo`. -/
  | caseDemo
  /-- `GET /api/case-fixtures`. -/
  | listCaseFixtures
  /-- `GET /api/agent-definitions`. -/
  | listAgentDefinitions
  /-- `GET /api/cases/{case_id}`, and its evidence, claims and so on. -/
  | getCase (caseId : String)
  | getCaseEvidence (caseId : String)
  | getCaseClaims (caseId : String)
  | getCaseAuthority (caseId : String)
  | getCaseTrace (caseId : String)
  | verifyCaseTrace (caseId : String)
  | getCaseAgentRuns (caseId : String)
  | getCaseGuardrailReport (caseId : String)
  /-- `GET /api/reviews`. -/
  | listReviews
  /-- `GET /api/reviews/{review_id}`. -/
  | getReview (reviewId : String)
  deriving DecidableEq, Repr

inductive Answer (R : Type) where
  | summary (w : WorkflowSummary)
  | caseIds (ids : List String)
  | agents (definitions : List AgentDefinition)
  | case (c : ShownCase)
  | evidence (items : List (ShownEvidence R))
  | claims (items : List ShownClaim)
  | authority (items : List ShownAuthority)
  | trace (items : List ShownTraceEvent)
  | verification (v : TraceVerification)
  | agentRuns (items : List ShownAgentRun)
  | guardrails (report : ShownReport R)
  | reviews (items : List ShownReview)
  | review (r : ShownReview)
  | caseNotFound (caseId : String)
  | guardrailReportNotFound (caseId : String)
  | reviewNotFound (reviewId : String)
  /-- An exception that no handler maps to an error response. -/
  | serverError

/-- `error_code` and `message` of a 404. -/
def Answer.error : Answer R → Option (String × String)
  | .caseNotFound id => some ("CASE_NOT_FOUND", s!"No case with id {id}")
  | .guardrailReportNotFound id =>
      some ("GUARDRAIL_REPORT_NOT_FOUND", s!"No guardrail report for case {id}")
  | .reviewNotFound id => some ("REVIEW_NOT_FOUND", s!"No review with id {id}")
  | _ => none

/-- The rows of a case in a table, in the order of the table. -/
def rowsOf {ρ : Type} [Constrained ρ] (t : Table ρ) (caseOf : ρ → String) (caseId : String) :
    List ρ :=
  t.rows.filter fun r => caseOf r = caseId

/-- The endpoints of a stored case answer 404 for any other. -/
def ifStored (s : Store R) (caseId : String) (answer : CaseRow → Answer R) : Answer R :=
  match s.getCase caseId with
  | none => .caseNotFound caseId
  | some row => answer row

/-- The answer of a reading endpoint. -/
def answer (api : Api R) (db : Database R) : Query → Answer R
  | .caseDemo =>
      let hero := api.registry.hero
      match runCasePipeline api.runtime hero.case hero.sources {} with
      | .ok a => .summary (summaryOf a)
      | .error _ => .serverError
  | .listCaseFixtures => .caseIds api.registry.listAvailableCaseIds
  | .listAgentDefinitions => .agents (registeredAgents api.runtime)
  | .getCase caseId => ifStored db.tables caseId fun row => .case (.of db.clock row)
  | .getCaseEvidence caseId => ifStored db.tables caseId fun _ =>
      .evidence (shownEvidence (rowsOf db.tables.evidence Evidence.caseId caseId))
  | .getCaseClaims caseId => ifStored db.tables caseId fun _ =>
      .claims ((rowsOf db.tables.claims Claim.caseId caseId).map .of)
  | .getCaseAuthority caseId => ifStored db.tables caseId fun _ =>
      .authority ((rowsOf db.tables.authorityRecords AuthorityRecord.caseId caseId).map .of)
  | .getCaseTrace caseId => ifStored db.tables caseId fun _ =>
      .trace ((bySequence (rowsOf db.tables.traceEvents TraceEvent.caseId caseId)).map
        (.of db.clock))
  | .verifyCaseTrace caseId => ifStored db.tables caseId fun _ =>
      .verification (TraceStorage.verifyCaseTrace api.runtime caseId
        (bySequence (rowsOf db.tables.traceEvents TraceEvent.caseId caseId)))
  | .getCaseAgentRuns caseId => ifStored db.tables caseId fun _ =>
      .agentRuns ((byStart ((rowsOf db.tables.agentRuns AgentRun.caseId caseId).map
        (.of db.clock))).map (.of db.clock db.tables.agentSteps.rows))
  | .getCaseGuardrailReport caseId => ifStored db.tables caseId fun _ =>
      match latestReport db.clock
          (rowsOf db.tables.guardrailReports GuardrailReport.caseId caseId) with
      | none => .guardrailReportNotFound caseId
      | some report => .guardrails report
  | .listReviews => .reviews (db.tables.reviewTasks.rows.map (.of db.clock))
  | .getReview reviewId =>
      match db.tables.reviewTasks.get reviewId with
      | none => .reviewNotFound reviewId
      | some r => .review (.of db.clock r)

end CaseQueries
