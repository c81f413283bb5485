import OutcomeAssurance.Pipeline

/-! # What resolution reads of the evidence

    RESOLVE reads few facts of an evidence item: its ids, whether it is
    admitted, whether it carries the contradiction mark, and which fault
    wordings its excerpt has.  Claims and ruling are functions of these facts,
    so two runs that agree on them decide alike. -/

namespace EvidenceView

open CaseModel PyDict PyRuntime Investigation Validation Resolution Pipeline

/-! ## The rules, on facts alone -/

/-- What RESOLVE reads of an item. -/
structure Facts where
  evidenceId : String
  sourceId : String
  admitted : Bool
  marked : Bool
  major : Bool
  minor : Bool
  deriving DecidableEq, Repr

namespace Facts

def disputed (fs : List Facts) : Bool := fs.any Facts.marked

def admittedOf (fs : List Facts) : List Facts := fs.filter Facts.admitted

def escalationOf (fs : List Facts) : List Facts :=
  (admittedOf fs).filter fun f => f.sourceId = "SRC-KOGAN-GUARANTEE"

/-- The items that say something about the fault. -/
def faultOf (fs : List Facts) : List Facts :=
  (if disputed fs then fs else admittedOf fs).filter fun f => f.major || f.minor

def majorOf (fs : List Facts) : List Facts := (faultOf fs).filter Facts.major

def minorOf (fs : List Facts) : List Facts := (faultOf fs).filter Facts.minor

def ids (fs : List Facts) : List String := fs.map Facts.evidenceId

/-- The verdict on a major failure. -/
def verdict (fs : List Facts) : FaultVerdict :=
  if disputed fs then ⟨.unknown, [.contradictionPresent], ids (majorOf fs), ids (minorOf fs)⟩
  else if (faultOf fs).isEmpty then ⟨.unknown, [.faultAssessmentUnavailable], [], []⟩
  else if minorOf fs ≠ [] then ⟨.false, [.faultAssessmentConfirmsMinorFault], ids (minorOf fs), []⟩
  else if majorOf fs ≠ [] then
    ⟨.true, [.faultAssessmentConfirmsMajorFailure], ids (majorOf fs), []⟩
  else ⟨.unknown, [.faultAssessmentInconclusive], [], []⟩

/-- The eight claims. -/
def claims (c : Case) (fs : List Facts) : List Claim :=
  let responded := ((c.event.get "seller_response").map EventValue.truthy).getD false
  [either c .orderAndSellerVerified (bindingMatch c) .false
      [.orderSellerProductMatchRegistry] (bindingReasons c) [],
   either c .publicSourceValid (!(admittedOf fs).isEmpty) .unknown
      [.sourceAdmitted] [.noAdmittedSource] (ids (admittedOf fs)),
   either c .sellerResponseRecorded responded .unknown
      [.sellerResponsePresent] [.sellerResponsePresent] [],
   either c .marketplaceEscalationPathSupported (!(escalationOf fs).isEmpty) .unknown
      [.retailerPolicyAdmitted] [.escalationSourceMissing] (ids (escalationOf fs)),
   either c .faultAssessmentAvailable (!(faultOf fs).isEmpty && !disputed fs) .false
      [.faultAssessmentAdmitted] [.noFaultAssessmentEvidence] (ids (faultOf fs)),
   claim c .majorFailureEstablished (verdict fs).status (verdict fs).reasonCodes
      (verdict fs).evidenceIds (verdict fs).counterEvidenceIds,
   claim c .autoRefundPermitted .false [.refundNotAutoApprovableByPolicy] [],
   either c .humanReviewRequired ((verdict fs).status ≠ .false) .false
      [.faultStatusUnknownOrMajor, .refundRequested] [.faultResolvedAsMinor] []]

/-- The ruling. -/
def rule (c : Case) (fs : List Facts) : Ruling :=
  ruling (orderClaim c) (verdict fs).status
    (if !(escalationOf fs).isEmpty then .true else .unknown)

end Facts

/-! ## The facts of evidence -/

variable {R : Type} {rt : Runtime R}

def factsOf (rt : Runtime R) (e : Evidence R) : Facts where
  evidenceId := e.evidenceId
  sourceId := e.sourceId
  admitted := isAdmitted e
  marked := .contradictionPresent ∈ e.validationReasons
  major := saysMajor rt e.excerpt
  minor := saysMinor rt e.excerpt

section Refinement

variable (evidence : List (Evidence R))

theorem disputed_factsOf :
    Facts.disputed (evidence.map (factsOf rt)) = contradictory evidence := by
  rw [Facts.disputed, List.any_map]
  rfl

theorem admittedOf_factsOf :
    Facts.admittedOf (evidence.map (factsOf rt)) =
      (admittedEvidence evidence).map (factsOf rt) :=
  List.filter_map

theorem escalationOf_factsOf :
    Facts.escalationOf (evidence.map (factsOf rt)) =
      ((admittedEvidence evidence).filter fun e => e.sourceId = "SRC-KOGAN-GUARANTEE").map
        (factsOf rt) := by
  rw [Facts.escalationOf, admittedOf_factsOf, List.filter_map]
  rfl

theorem faultOf_factsOf :
    Facts.faultOf (evidence.map (factsOf rt)) = (faultEvidence rt evidence).map (factsOf rt) := by
  rw [Facts.faultOf, disputed_factsOf, admittedOf_factsOf, faultEvidence]
  split <;> exact List.filter_map

theorem majorOf_factsOf :
    Facts.majorOf (evidence.map (factsOf rt)) = (majorSupporting rt evidence).map (factsOf rt) := by
  rw [Facts.majorOf, faultOf_factsOf, List.filter_map]
  rfl

theorem minorOf_factsOf :
    Facts.minorOf (evidence.map (factsOf rt)) = (minorSupporting rt evidence).map (factsOf rt) := by
  rw [Facts.minorOf, faultOf_factsOf, List.filter_map]
  rfl

theorem ids_factsOf :
    Facts.ids (evidence.map (factsOf rt)) = evidence.map Evidence.evidenceId := by
  rw [Facts.ids, List.map_map]
  rfl

theorem verdict_factsOf :
    Facts.verdict (evidence.map (factsOf rt)) = faultVerdict rt evidence := by
  simp only [Facts.verdict, faultVerdict, disputed_factsOf, faultOf_factsOf, majorOf_factsOf,
    minorOf_factsOf, ids_factsOf, List.isEmpty_map, ne_eq, List.map_eq_nil_iff]

/-- **CLAIMS FROM FACTS**: the resolved claims are those of the facts. -/
theorem resolvedClaims_eq (c : Case) :
    resolvedClaims rt c evidence = Facts.claims c (evidence.map (factsOf rt)) := by
  simp only [resolvedClaims, Facts.claims, disputed_factsOf, admittedOf_factsOf,
    escalationOf_factsOf, faultOf_factsOf, verdict_factsOf, ids_factsOf, List.isEmpty_map]

theorem caseRuling_eq (c : Case) :
    caseRuling rt c evidence = Facts.rule c (evidence.map (factsOf rt)) := by
  rw [caseRuling, Facts.rule, escalationOf_factsOf, verdict_factsOf, List.isEmpty_map]

end Refinement

/-! ## Disagreeing fault assessments -/

/-- Two fault assessments conclude differently. -/
def Disagree (candidates : List Source) : Prop :=
  ∃ s ∈ candidates, ∃ t ∈ candidates, s.isFaultAssessment = true ∧ t.isFaultAssessment = true ∧
    ∃ u v, s.faultConclusion = some u ∧ t.faultConclusion = some v ∧ u ≠ "" ∧ v ≠ "" ∧ u ≠ v

/-- What the comparison reads of a source. -/
def assessment (s : Source) : Bool × Option String := (s.isFaultAssessment, s.faultConclusion)

/-- More assessments disagree as well. -/
theorem Disagree.mono {ss ss' : List Source} (h : Disagree ss)
    (hsub : ss.map assessment ⊆ ss'.map assessment) : Disagree ss' := by
  obtain ⟨s, hs, t, ht, hsf, htf, u, v, hu, hv, hdiffer⟩ := h
  obtain ⟨s', hs', hseq⟩ := List.mem_map.mp (hsub (List.mem_map.mpr ⟨s, hs, rfl⟩))
  obtain ⟨t', ht', hteq⟩ := List.mem_map.mp (hsub (List.mem_map.mpr ⟨t, ht, rfl⟩))
  obtain ⟨hsf', hu'⟩ := Prod.ext_iff.mp hseq
  obtain ⟨htf', hv'⟩ := Prod.ext_iff.mp hteq
  exact ⟨s', hs', t', ht', hsf'.trans hsf, htf'.trans htf, u, v, hu'.trans hu, hv'.trans hv,
    hdiffer⟩

section Distinct

variable {candidates : List Source}

/-- With distinct ids every fault assessment is the latest one of its id. -/
theorem isLatestFault_iff (h : (candidates.map Source.sourceId).Nodup) {s : Source} :
    IsLatestFault candidates s ↔ s ∈ candidates ∧ s.isFaultAssessment = true := by
  constructor
  · rintro ⟨before, after, hfilter, -⟩
    have hmem : s ∈ candidates.filter Source.isFaultAssessment := by simp [hfilter]
    exact List.mem_filter.mp hmem
  · intro hs
    obtain ⟨before, after, hfilter⟩ := List.append_of_mem (List.mem_filter.mpr hs)
    refine ⟨before, after, hfilter, fun t ht heq => ?_⟩
    have hnodup := h.sublist ((List.filter_sublist (p := Source.isFaultAssessment)).map _)
    rw [hfilter, List.map_append, List.map_cons] at hnodup
    have hout := (List.nodup_cons.mp (List.nodup_append.mp hnodup).2.1).1
    exact hout (List.mem_map.mpr ⟨t, ht, heq⟩)

theorem contradicted_iff_disagree (h : (candidates.map Source.sourceId).Nodup) :
    contradicted candidates = true ↔ Disagree candidates := by
  rw [contradicted_iff]
  constructor
  · rintro ⟨s, t, hs, ht, hdiffer⟩
    obtain ⟨hs, hsf⟩ := (isLatestFault_iff h).mp hs
    obtain ⟨ht, htf⟩ := (isLatestFault_iff h).mp ht
    exact ⟨s, hs, t, ht, hsf, htf, hdiffer⟩
  · rintro ⟨s, hs, t, ht, hsf, htf, hdiffer⟩
    exact ⟨s, t, (isLatestFault_iff h).mpr ⟨hs, hsf⟩, (isLatestFault_iff h).mpr ⟨ht, htf⟩,
      hdiffer⟩

/-- With distinct ids the comparison marks the fault assessments themselves. -/
theorem has_faultSources (h : (candidates.map Source.sourceId).Nodup) {s : Source}
    (hs : s ∈ candidates) :
    (faultSources candidates).has s.sourceId = s.isFaultAssessment := by
  rw [Bool.eq_iff_iff, Dict.has, Option.isSome_iff_exists]
  constructor
  · rintro ⟨t, hget⟩
    obtain ⟨before, after, hsplit, -⟩ := Dict.get_ofPairs.mp hget
    have hmem : (s.sourceId, t) ∈ (candidates.filter Source.isFaultAssessment).map
        fun s => (s.sourceId, s) := by simp [hsplit]
    obtain ⟨t', ht', heq⟩ := List.mem_map.mp hmem
    obtain ⟨hid, rfl⟩ := Prod.ext_iff.mp heq
    obtain ⟨ht', hfault⟩ := List.mem_filter.mp ht'
    have hsame : t' = s := List.inj_on_of_nodup_map h ht' hs hid
    exact hsame ▸ hfault
  · intro hfault
    obtain ⟨k, hget⟩ := Dict.mem_values.mp (mem_faultSources.mpr
      ((isLatestFault_iff h).mpr ⟨hs, hfault⟩))
    obtain ⟨before, after, hsplit, -⟩ := Dict.get_ofPairs.mp hget
    have hmem : (k, s) ∈ (candidates.filter Source.isFaultAssessment).map
        fun s => (s.sourceId, s) := by simp [hsplit]
    obtain ⟨t, -, heq⟩ := List.mem_map.mp hmem
    obtain ⟨rfl, rfl⟩ := Prod.ext_iff.mp heq
    exact ⟨t, hget⟩

end Distinct

/-! ## The facts of a run -/

/-- The facts of a candidate, whether the assessments disagree or not. -/
def sourceFacts (rt : Runtime R) (c : Case) (disagree : Bool) (s : Source) : Facts where
  evidenceId := "EVID-" ++ s.sourceId
  sourceId := s.sourceId
  admitted := passes c s && !(disagree && s.isFaultAssessment)
  marked := disagree && s.isFaultAssessment
  major := saysMajor rt s.text
  minor := saysMinor rt s.text

/-- The mark is a blocking reason. -/
theorem isAdmitted_marked (e : Evidence R) :
    isAdmitted { e with validationReasons := e.validationReasons ++ [.contradictionPresent] }
      = false := by
  have hmark : (e.validationReasons ++ [ReasonCode.contradictionPresent]).all
      (· ∈ nonBlockingReasons) = false := by
    rw [List.all_append, Bool.and_eq_false_iff]
    exact Or.inr (by decide)
  rw [isAdmitted, hmark, Bool.and_false]

theorem unmarked_evidenceOf (c : Case) (scores : Dict String R) (s : Source) :
    .contradictionPresent ∉ (evidenceOf rt c scores s).validationReasons := by
  simp [evidenceOf, validationReasons, checkReasons]

/-- What validation makes of a candidate, as facts. -/
theorem factsOf_settled {c : Case} {candidates : List Source}
    (h : (candidates.map Source.sourceId).Nodup) {s : Source} (hs : s ∈ candidates) :
    factsOf rt (settledEvidence rt c candidates s) =
      sourceFacts rt c (contradicted candidates) s := by
  have hhas : (faultSources candidates).has (evidenceOf rt c
      (Retrieval.scoreCandidates rt (Retrieval.buildQuery c) candidates) s).sourceId
      = s.isFaultAssessment := has_faultSources h hs
  rw [settledEvidence, markContradiction, hhas]
  cases hmark : contradicted candidates && s.isFaultAssessment with
  | true =>
      rw [if_pos rfl, factsOf, isAdmitted_marked]
      simp [sourceFacts, hmark, evidenceOf]
  | false =>
      rw [if_neg Bool.false_ne_true, factsOf, isAdmitted_evidenceOf,
        decide_eq_false (unmarked_evidenceOf c _ s)]
      simp only [sourceFacts, hmark, evidenceOf, Bool.not_false, Bool.and_true]

/-- The facts of the candidates of a case. -/
def runFacts (rt : Runtime R) (c : Case) (sources : List Source) : List Facts :=
  (candidatesOf c sources).map (sourceFacts rt c (contradicted (candidatesOf c sources)))

theorem candidates_nodup {sources : List Source} (c : Case)
    (h : (sources.map Source.sourceId).Nodup) :
    ((candidatesOf c sources).map Source.sourceId).Nodup :=
  h.sublist (List.filter_sublist.map _)

/-- **FACTS OF A RUN**: those of its candidates. -/
theorem factsOf_runEvidence (rt : Runtime R) (c : Case) {sources : List Source}
    (h : (sources.map Source.sourceId).Nodup) :
    (runEvidence rt c sources).map (factsOf rt) = runFacts rt c sources := by
  rw [runEvidence, List.map_map]
  exact List.map_congr_left fun s hs => factsOf_settled (candidates_nodup c h) hs

theorem claims_of_run (rt : Runtime R) (c : Case) {sources : List Source}
    (h : (sources.map Source.sourceId).Nodup) :
    resolvedClaims rt c (runEvidence rt c sources) = Facts.claims c (runFacts rt c sources) := by
  rw [resolvedClaims_eq, factsOf_runEvidence rt c h]

theorem ruling_of_run (rt : Runtime R) (c : Case) {sources : List Source}
    (h : (sources.map Source.sourceId).Nodup) :
    caseRuling rt c (runEvidence rt c sources) = Facts.rule c (runFacts rt c sources) := by
  rw [caseRuling_eq, factsOf_runEvidence rt c h]

/-! ## Runs with the same facts -/

/-- Two runs admit, claim, decide and end alike. -/
structure SameOutcome (a a' : CaseArtifacts R) : Prop where
  admitted : (admittedEvidence a.evidence).map Evidence.evidenceId =
    (admittedEvidence a'.evidence).map Evidence.evidenceId
  claims : a.claims = a'.claims
  authority : a.authority = a'.authority
  review : a.review = a'.review
  termination : a.terminationStatus = a'.terminationStatus

theorem admittedIds_of_run (rt : Runtime R) (c : Case) {sources : List Source}
    (h : (sources.map Source.sourceId).Nodup) :
    (admittedEvidence (runEvidence rt c sources)).map Evidence.evidenceId =
      Facts.ids (Facts.admittedOf (runFacts rt c sources)) := by
  rw [← factsOf_runEvidence rt c h, admittedOf_factsOf, ids_factsOf]

/-- **FACTS DECIDE**: runs with the same facts have the same outcome. -/
theorem sameOutcome_of_facts {c : Case} {sources sources' : List Source} {budget : RunBudget}
    (h : (sources.map Source.sourceId).Nodup) (h' : (sources'.map Source.sourceId).Nodup)
    (hfacts : runFacts rt c sources = runFacts rt c sources')
    (report report' : GuardrailReport R) (entries entries' : List TraceChain.Entry) :
    SameOutcome
      (completedArtifacts rt c sources budget (runReview rt c sources) report entries)
      (completedArtifacts rt c sources' budget (runReview rt c sources') report' entries') := by
  have hauthority : runAuthority rt c sources = runAuthority rt c sources' := by
    rw [runAuthority, runAuthority, ruling_of_run rt c h, ruling_of_run rt c h', hfacts]
  have hreview : runReview rt c sources = runReview rt c sources' := by
    rw [runReview, runReview, hauthority]
  exact {
    admitted := by
      show (admittedEvidence (runEvidence rt c sources)).map _ =
        (admittedEvidence (runEvidence rt c sources')).map _
      rw [admittedIds_of_run rt c h, admittedIds_of_run rt c h', hfacts]
    claims := by
      show resolvedClaims rt c (runEvidence rt c sources) =
        resolvedClaims rt c (runEvidence rt c sources')
      rw [claims_of_run rt c h, claims_of_run rt c h', hfacts]
    authority := hauthority
    review := hreview
    termination := by rw [hreview]; rfl }

end EvidenceView
