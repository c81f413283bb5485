import OutcomeAssurance.Validation

/-! # Resolution

    `app/services/resolve.py`: the rules that turn the evidence of a case into
    its eight claims, over the bindings of the case registry. -/

namespace Resolution

open CaseModel PyRuntime PyText TraceChain Validation

def ruleVersion : String := "rules-v2"

/-! ## The registry -/

structure Binding where
  orderRef : String
  sellerRef : String
  productRef : String
  deriving DecidableEq, Repr

/-- `valid_bindings()`, as the repository ships them. -/
def validBindings : List Binding :=
  [⟨"ORD-1001", "SELLER-900", "PROD-LAPTOP-01"⟩,
   ⟨"ORD-1002", "SELLER-901", "PROD-LAPTOP-02"⟩,
   ⟨"ORD-1003", "SELLER-902", "PROD-TABLET-01"⟩,
   ⟨"ORD-1004", "SELLER-903", "PROD-MONITOR-01"⟩]

/-- `binding_match`. -/
def bindingMatch (c : Case) : Bool :=
  validBindings.any fun b =>
    b.orderRef = c.orderRef && b.sellerRef = c.sellerRef && b.productRef = c.productRef

/-- `binding_reasons` of a case whose triple is not registered. -/
def bindingReasons (c : Case) : List ReasonCode :=
  let reasons :=
    flag (!validBindings.any fun b => b.orderRef = c.orderRef) .wrongOrderBinding
      ++ flag (!validBindings.any fun b => b.sellerRef = c.sellerRef) .wrongSellerBinding
      ++ flag (!validBindings.any fun b => b.productRef = c.productRef) .wrongProductBinding
  if reasons = [] then [.wrongOrderBinding] else reasons

/-! ## The fault verdict -/

variable {R : Type} (rt : Runtime R)

/-- The text says "major failure". -/
def saysMajor (text : String) : Bool := occursIn "major failure" (rt.lower text)

/-- The text says "minor" or "cosmetic". -/
def saysMinor (text : String) : Bool :=
  occursIn "minor" (rt.lower text) || occursIn "cosmetic" (rt.lower text)

/-- `contradictory`. -/
def contradictory (evidence : List (Evidence R)) : Bool :=
  evidence.any fun e => .contradictionPresent ∈ e.validationReasons

/-- `fault_evidence`: from the admitted items, or from all when they contradict
    one another. -/
def faultEvidence (evidence : List (Evidence R)) : List (Evidence R) :=
  (if contradictory evidence then evidence else admittedEvidence evidence).filter
    fun e => saysMajor rt e.excerpt || saysMinor rt e.excerpt

def majorSupporting (evidence : List (Evidence R)) : List (Evidence R) :=
  (faultEvidence rt evidence).filter fun e => saysMajor rt e.excerpt

def minorSupporting (evidence : List (Evidence R)) : List (Evidence R) :=
  (faultEvidence rt evidence).filter fun e => saysMinor rt e.excerpt

/-- Status, reasons and citations of `MAJOR_FAILURE_ESTABLISHED`. -/
structure FaultVerdict where
  status : ClaimStatus
  reasonCodes : List ReasonCode
  evidenceIds : List String := []
  counterEvidenceIds : List String := []
  deriving DecidableEq, Repr

/-- The branches of the verdict, in the source's order. -/
def faultVerdict (evidence : List (Evidence R)) : FaultVerdict :=
  let major := (majorSupporting rt evidence).map Evidence.evidenceId
  let minor := (minorSupporting rt evidence).map Evidence.evidenceId
  if contradictory evidence then ⟨.unknown, [.contradictionPresent], major, minor⟩
  else if (faultEvidence rt evidence).isEmpty then ⟨.unknown, [.faultAssessmentUnavailable], [], []⟩
  -- an item that says both is minor evidence first
  else if minor ≠ [] then ⟨.false, [.faultAssessmentConfirmsMinorFault], minor, []⟩
  else if major ≠ [] then ⟨.true, [.faultAssessmentConfirmsMajorFailure], major, []⟩
  else ⟨.unknown, [.faultAssessmentInconclusive], [], []⟩

/-! ## The claims -/

/-- `add_claim`. -/
def claim (c : Case) (claimType : ClaimType) (status : ClaimStatus)
    (reasonCodes : List ReasonCode) (evidenceIds : List String)
    (counterEvidenceIds : List String := []) : Claim where
  claimId := "CLAIM-" ++ c.caseId ++ "-" ++ claimType.name
  caseId := c.caseId
  claimType := claimType
  status := status
  evidenceIds := evidenceIds
  counterEvidenceIds := counterEvidenceIds
  ruleVersion := ruleVersion
  reasonCodes := reasonCodes

/-- TRUE with one list of reasons, or another status with the other. -/
def either (c : Case) (claimType : ClaimType) (holds : Bool) (otherwise : ClaimStatus)
    (reasons otherReasons : List ReasonCode) (evidenceIds : List String) : Claim :=
  claim c claimType (if holds then .true else otherwise) (if holds then reasons else otherReasons)
    evidenceIds

@[simp] theorem claim_claimType (c : Case) (t : ClaimType) (status : ClaimStatus)
    (reasonCodes : List ReasonCode) (ids counterIds : List String) :
    (claim c t status reasonCodes ids counterIds).claimType = t := rfl

@[simp] theorem either_claimType (c : Case) (t : ClaimType) (holds : Bool)
    (otherwise : ClaimStatus) (reasons otherReasons : List ReasonCode) (ids : List String) :
    (either c t holds otherwise reasons otherReasons ids).claimType = t := rfl

/-- The eight claims of a case, in order. -/
def resolvedClaims (c : Case) (evidence : List (Evidence R)) : List Claim :=
  let admitted := admittedEvidence evidence
  let escalation := admitted.filter fun e => e.sourceId = "SRC-KOGAN-GUARANTEE"
  let fault := faultEvidence rt evidence
  let available := !fault.isEmpty && !contradictory evidence
  let verdict := faultVerdict rt evidence
  let responded := ((c.event.get "seller_response").map EventValue.truthy).getD false
  [either c .orderAndSellerVerified (bindingMatch c) .false
      [.orderSellerProductMatchRegistry] (bindingReasons c) [],
   either c .publicSourceValid (!admitted.isEmpty) .unknown
      [.sourceAdmitted] [.noAdmittedSource] (admitted.map Evidence.evidenceId),
   -- one reason code, whether a response is there or not
   either c .sellerResponseRecorded responded .unknown
      [.sellerResponsePresent] [.sellerResponsePresent] [],
   either c .marketplaceEscalationPathSupported (!escalation.isEmpty) .unknown
      [.retailerPolicyAdmitted] [.escalationSourceMissing] (escalation.map Evidence.evidenceId),
   either c .faultAssessmentAvailable available .false
      [.faultAssessmentAdmitted] [.noFaultAssessmentEvidence] (fault.map Evidence.evidenceId),
   claim c .majorFailureEstablished verdict.status verdict.reasonCodes verdict.evidenceIds
      verdict.counterEvidenceIds,
   claim c .autoRefundPermitted .false [.refundNotAutoApprovableByPolicy] [],
   either c .humanReviewRequired (verdict.status ≠ .false) .false
      [.faultStatusUnknownOrMajor, .refundRequested] [.faultResolvedAsMinor] []]

def resolvedEntry (c : Claim) : Entry where
  stage := "RESOLVE"
  eventType := "CLAIM_RESOLVED"
  evidenceIds := c.evidenceIds ++ c.counterEvidenceIds

/-- `resolve_claims`. -/
def resolveClaims (c : Case) (evidence : List (Evidence R)) (trace : TraceRecorder) :
    List Claim × TraceRecorder :=
  let claims := resolvedClaims rt c evidence
  (claims, trace.recordAll rt (claims.map resolvedEntry))

/-! ## What the claims are -/

variable {rt}

/-- The types of the claims, whatever the evidence. -/
theorem resolvedClaims_types (c : Case) (evidence : List (Evidence R)) :
    (resolvedClaims rt c evidence).map Claim.claimType =
      [.orderAndSellerVerified, .publicSourceValid, .sellerResponseRecorded,
        .marketplaceEscalationPathSupported, .faultAssessmentAvailable, .majorFailureEstablished,
        .autoRefundPermitted, .humanReviewRequired] := rfl

theorem resolvedClaims_ids (c : Case) (evidence : List (Evidence R)) :
    ∀ cl ∈ resolvedClaims rt c evidence,
      cl.caseId = c.caseId ∧ cl.claimId = "CLAIM-" ++ c.caseId ++ "-" ++ cl.claimType.name := by
  intro cl hcl
  simp only [resolvedClaims, List.mem_cons, List.not_mem_nil, or_false] at hcl
  rcases hcl with rfl | rfl | rfl | rfl | rfl | rfl | rfl | rfl <;> exact ⟨rfl, rfl⟩

/-- The one claim about a major failure carries the verdict. -/
theorem mem_majorFailure {c : Case} {evidence : List (Evidence R)} {cl : Claim} :
    (cl ∈ resolvedClaims rt c evidence ∧ cl.claimType = .majorFailureEstablished) ↔
      cl = claim c .majorFailureEstablished (faultVerdict rt evidence).status
        (faultVerdict rt evidence).reasonCodes (faultVerdict rt evidence).evidenceIds
        (faultVerdict rt evidence).counterEvidenceIds := by
  constructor
  · rintro ⟨hcl, htype⟩
    simp only [resolvedClaims, List.mem_cons, List.not_mem_nil, or_false] at hcl
    rcases hcl with rfl | rfl | rfl | rfl | rfl | rfl | rfl | rfl
    case inr.inr.inr.inr.inr.inl => rfl
    all_goals simp at htype
  · rintro rfl
    exact ⟨by simp [resolvedClaims], rfl⟩

/-- Fault evidence says something about the fault, so the inconclusive branch
    is never reached. -/
theorem supporting_of_faultEvidence {evidence : List (Evidence R)}
    (h : faultEvidence rt evidence ≠ []) :
    minorSupporting rt evidence ≠ [] ∨ majorSupporting rt evidence ≠ [] := by
  obtain ⟨e, he⟩ := List.exists_mem_of_ne_nil _ h
  have hsays := (List.mem_filter.mp he).2
  rcases (Bool.or_eq_true ..).mp hsays with hmajor | hminor
  · exact Or.inr (List.ne_nil_of_mem (List.mem_filter.mpr ⟨he, hmajor⟩))
  · exact Or.inl (List.ne_nil_of_mem (List.mem_filter.mpr ⟨he, hminor⟩))

end Resolution
