import OutcomeAssurance.PyDict
import OutcomeAssurance.PyRuntime

/-! # Cases, sources and what a run produces

    The fixture data of `app/services/fixtures.py` and the records of
    `app/models.py`.  Dates are instants in microseconds; a fixture's strings
    are taken as parsed.  Left out: wall-clock stamps, and the fields of the
    agent records that no code ever sets (token counts, cost, latency). -/

namespace CaseModel

open PyDict PyRuntime

/-- Microseconds since the epoch. -/
abbrev Instant := Int

/-- A value of `case["event"]`: its text, or what `bool` says of it. -/
inductive EventValue where
  | text (s : String)
  | other (truthy : Bool)
  deriving DecidableEq, Repr

def EventValue.truthy : EventValue → Bool
  | .text s => s ≠ ""
  | .other b => b

/-- A case fixture. -/
structure Case where
  caseId : String
  orderRef : String
  sellerRef : String
  productRef : String
  riskBand : String
  asOf : Instant
  sourceRefs : List String
  event : Dict String EventValue := ∅
  customerRequest : String := ""
  expectedSourceVersions : Dict String String := ∅

/-- One entry of a source manifest; a key that is absent is `none`. -/
structure Source where
  sourceId : String
  url : String
  title : String
  sourceClass : String
  retrievedAt : Instant
  effectiveAt : Option Instant := none
  contentHash : String
  version : String
  allowedForEvidence : Bool
  tamperedHash : Bool := false
  locator : Option String := none
  excerptKind : Option String := none
  excerpt : Option String := none
  faultConclusion : Option String := none
  deriving DecidableEq, Repr

/-- `cand.get("excerpt", "")`. -/
def Source.text (s : Source) : String := s.excerpt.getD ""

/-- `source_class == "fault_assessment"`. -/
def Source.isFaultAssessment (s : Source) : Bool := s.sourceClass = "fault_assessment"

/-! ## Reason codes -/

/-- Every reason code of the pipeline. -/
inductive ReasonCode where
  | sourceNotAllowed | wrongCaseBinding | sourceVersionMismatch | sourceStaleOrOutOfTime
  | hashMismatch | locatorNotFound | claimNotSupported | promptInjectionContent
  | lowRelevanceRetrieval | contradictionPresent
  | wrongOrderBinding | wrongSellerBinding | wrongProductBinding
  | orderSellerProductMatchRegistry | sourceAdmitted | noAdmittedSource | sellerResponsePresent
  | retailerPolicyAdmitted | escalationSourceMissing | faultAssessmentAdmitted
  | noFaultAssessmentEvidence | faultAssessmentUnavailable | faultAssessmentConfirmsMinorFault
  | faultAssessmentConfirmsMajorFailure | faultAssessmentInconclusive
  | refundNotAutoApprovableByPolicy | faultStatusUnknownOrMajor | refundRequested
  | faultResolvedAsMinor
  | budgetExceeded | toolCalls | steps | faultStatusUnknown | refundRequiresReview
  | majorFailureConfirmed | majorFailureNotEstablished | escalationPathAvailable
  | missingFaultEvidence
  deriving DecidableEq, Repr

def ReasonCode.name : ReasonCode → String
  | .sourceNotAllowed => "SOURCE_NOT_ALLOWED"
  | .wrongCaseBinding => "WRONG_CASE_BINDING"
  | .sourceVersionMismatch => "SOURCE_VERSION_MISMATCH"
  | .sourceStaleOrOutOfTime => "SOURCE_STALE_OR_OUT_OF_TIME"
  | .hashMismatch => "HASH_MISMATCH"
  | .locatorNotFound => "LOCATOR_NOT_FOUND"
  | .claimNotSupported => "CLAIM_NOT_SUPPORTED"
  | .promptInjectionContent => "PROMPT_INJECTION_CONTENT"
  | .lowRelevanceRetrieval => "LOW_RELEVANCE_RETRIEVAL"
  | .contradictionPresent => "CONTRADICTION_PRESENT"
  | .wrongOrderBinding => "WRONG_ORDER_BINDING"
  | .wrongSellerBinding => "WRONG_SELLER_BINDING"
  | .wrongProductBinding => "WRONG_PRODUCT_BINDING"
  | .orderSellerProductMatchRegistry => "ORDER_SELLER_PRODUCT_MATCH_REGISTRY"
  | .sourceAdmitted => "SOURCE_ADMITTED"
  | .noAdmittedSource => "NO_ADMITTED_SOURCE"
  | .sellerResponsePresent => "SELLER_RESPONSE_PRESENT"
  | .retailerPolicyAdmitted => "RETAILER_POLICY_ADMITTED"
  | .escalationSourceMissing => "ESCALATION_SOURCE_MISSING"
  | .faultAssessmentAdmitted => "FAULT_ASSESSMENT_ADMITTED"
  | .noFaultAssessmentEvidence => "NO_FAULT_ASSESSMENT_EVIDENCE"
  | .faultAssessmentUnavailable => "FAULT_ASSESSMENT_UNAVAILABLE"
  | .faultAssessmentConfirmsMinorFault => "FAULT_ASSESSMENT_CONFIRMS_MINOR_FAULT"
  | .faultAssessmentConfirmsMajorFailure => "FAULT_ASSESSMENT_CONFIRMS_MAJOR_FAILURE"
  | .faultAssessmentInconclusive => "FAULT_ASSESSMENT_INCONCLUSIVE"
  | .refundNotAutoApprovableByPolicy => "REFUND_NOT_AUTO_APPROVABLE_BY_POLICY"
  | .faultStatusUnknownOrMajor => "FAULT_STATUS_UNKNOWN_OR_MAJOR"
  | .refundRequested => "REFUND_REQUESTED"
  | .faultResolvedAsMinor => "FAULT_RESOLVED_AS_MINOR"
  | .budgetExceeded => "BUDGET_EXCEEDED"
  | .toolCalls => "TOOL_CALLS"
  | .steps => "STEPS"
  | .faultStatusUnknown => "FAULT_STATUS_UNKNOWN"
  | .refundRequiresReview => "REFUND_REQUIRES_REVIEW"
  | .majorFailureConfirmed => "MAJOR_FAILURE_CONFIRMED"
  | .majorFailureNotEstablished => "MAJOR_FAILURE_NOT_ESTABLISHED"
  | .escalationPathAvailable => "ESCALATION_PATH_AVAILABLE"
  | .missingFaultEvidence => "MISSING_FAULT_EVIDENCE"

/-! ## Validated evidence -/

structure SourceSnapshot where
  sourceId : String
  url : String
  title : String
  sourceClass : String
  retrievedAt : Instant
  effectiveAt : Option Instant
  contentHash : String
  version : String
  allowedForEvidence : Bool
  deriving DecidableEq, Repr

/-- The values of `authority_status` and `entity_binding_status`. -/
inductive Validity where
  | valid | invalid
  deriving DecidableEq, Repr

inductive SupportStatus where
  | supported | unsupported
  deriving DecidableEq, Repr

structure Evidence (R : Type) where
  evidenceId : String
  caseId : String
  sourceId : String
  locator : String
  excerpt : String
  excerptKind : String
  contentHash : String
  authorityStatus : Validity
  entityBindingStatus : Validity
  supportStatus : SupportStatus
  validationReasons : List ReasonCode
  relevanceScore : R

/-! ## Claims and the authority decision -/

inductive ClaimStatus where
  | true | false | unknown
  deriving DecidableEq, Repr

inductive ClaimType where
  | orderAndSellerVerified | publicSourceValid | sellerResponseRecorded
  | marketplaceEscalationPathSupported | faultAssessmentAvailable | majorFailureEstablished
  | autoRefundPermitted | humanReviewRequired
  deriving DecidableEq, Repr

def ClaimType.name : ClaimType → String
  | .orderAndSellerVerified => "ORDER_AND_SELLER_VERIFIED"
  | .publicSourceValid => "PUBLIC_SOURCE_VALID"
  | .sellerResponseRecorded => "SELLER_RESPONSE_RECORDED"
  | .marketplaceEscalationPathSupported => "MARKETPLACE_ESCALATION_PATH_SUPPORTED"
  | .faultAssessmentAvailable => "FAULT_ASSESSMENT_AVAILABLE"
  | .majorFailureEstablished => "MAJOR_FAILURE_ESTABLISHED"
  | .autoRefundPermitted => "AUTO_REFUND_PERMITTED"
  | .humanReviewRequired => "HUMAN_REVIEW_REQUIRED"

structure Claim where
  claimId : String
  caseId : String
  claimType : ClaimType
  status : ClaimStatus
  evidenceIds : List String
  counterEvidenceIds : List String
  ruleVersion : String
  reasonCodes : List ReasonCode
  deriving DecidableEq, Repr

inductive AuthorityDecision where
  | allow | deny | requireHuman
  deriving DecidableEq, Repr

inductive ProposedAction where
  | none | escalateBindingMismatch | requestFaultEvidenceAndEscalate | escalateForRefund
  | denyRefund
  deriving DecidableEq, Repr

def ProposedAction.name : ProposedAction → String
  | .none => "NONE"
  | .escalateBindingMismatch => "ESCALATE_BINDING_MISMATCH"
  | .requestFaultEvidenceAndEscalate => "REQUEST_FAULT_EVIDENCE_AND_ESCALATE"
  | .escalateForRefund => "ESCALATE_FOR_REFUND"
  | .denyRefund => "DENY_REFUND"

structure AuthorityRecord where
  authorityId : String
  caseId : String
  proposedAction : ProposedAction
  decision : AuthorityDecision
  reasonCodes : List ReasonCode
  requiredRole : String
  policyVersion : String
  deriving DecidableEq, Repr

structure Outcome where
  outcomeId : String
  caseId : String
  attemptId : String
  intendedAction : ProposedAction
  observedResult : String
  reconciliationStatus : String
  mismatchReason : Option String
  deriving DecidableEq, Repr

inductive TerminationStatus where
  | completed | needsReview | insufficientEvidence | controlBlocked | technicalFailure
  deriving DecidableEq, Repr

def TerminationStatus.value : TerminationStatus → String
  | .completed => "COMPLETED"
  | .needsReview => "NEEDS_REVIEW"
  | .insufficientEvidence => "INSUFFICIENT_EVIDENCE"
  | .controlBlocked => "CONTROL_BLOCKED"
  | .technicalFailure => "TECHNICAL_FAILURE"

/-! ## Trace, agents and guardrails -/

structure TraceEvent where
  traceId : String
  caseId : String
  sequence : Int
  stage : String
  eventType : String
  toolName : Option String
  argumentHash : Option String
  resultHash : Option String
  stateBeforeHash : Option String
  stateAfterHash : Option String
  evidenceIds : List String
  deriving DecidableEq, Repr

inductive AgentRole where
  | supervisor | retrieval | critic | investigationPlanner
  deriving DecidableEq, Repr

def AgentRole.value : AgentRole → String
  | .supervisor => "SUPERVISOR"
  | .retrieval => "RETRIEVAL"
  | .critic => "CRITIC"
  | .investigationPlanner => "INVESTIGATION_PLANNER"

inductive AgentProvider where
  | deterministic | openai | anthropic
  deriving DecidableEq, Repr

structure AgentDefinition where
  agentId : String
  name : String
  role : AgentRole
  provider : AgentProvider
  configHash : String
  isActive : Bool := true
  deriving DecidableEq, Repr

structure AgentRun where
  agentRunId : String
  caseId : String
  agentId : String
  maxToolCalls : Int
  maxSteps : Int
  stage : String := "INVESTIGATE"
  parentRunId : Option String := none
  toolCallsUsed : Nat := 0
  stepsUsed : Nat := 0
  terminationStatus : Option TerminationStatus := none
  terminationReasonCodes : List ReasonCode := []
  deriving DecidableEq, Repr

structure AgentStep where
  stepId : String
  agentRunId : String
  sequence : Nat
  stepType : String
  toolName : Option String := none
  toolInputHash : Option String := none
  toolOutputHash : Option String := none
  candidateEvidenceIds : List String := []
  deriving DecidableEq, Repr

structure AgentHandoff where
  handoffId : String
  parentRunId : String
  childRunId : String
  fromAgentId : String
  toAgentId : String
  delegatedTask : String
  reasonCodes : List ReasonCode := []
  deriving DecidableEq, Repr

structure GuardrailFinding where
  category : String
  target : String
  detail : String
  blocking : Bool := false
  deriving DecidableEq, Repr

structure CaseSummarySentence where
  text : String
  evidenceIds : List String := []
  claimIds : List String := []
  grounded : Bool := true
  deriving DecidableEq, Repr

structure GuardrailReport (R : Type) where
  reportId : String
  caseId : String
  inputFindings : List GuardrailFinding
  relevanceScores : Dict String R
  summarySentences : List CaseSummarySentence
  ungroundedCount : Nat

end CaseModel
