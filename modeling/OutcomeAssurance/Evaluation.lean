import Mathlib.Algebra.Order.Field.Rat
import OutcomeAssurance.CaseDecision

/-! # The evaluation

    `app/evaluation.py`: the pipeline is run on every case of a dataset, with
    the sources of a shared pool, and the results are counted.  Recall and the
    rate of grounded summaries are exact; the mean relevance is the interpreter's,
    and the Wilson bound is that of an arithmetic.  Left out: the commit and the
    environment, which nothing here reads back. -/

namespace Evaluation

open CaseModel PyDict PyRuntime Investigation Validation Resolution Pipeline CaseDecision

/-! ## The dataset -/

/-- `entry["expected"]`, as far as it is read. -/
structure Expected where
  authorityDecision : String
  requiresReview : Bool
  /-- An absent key counts as false. -/
  injectionReasonPresent : Bool := false
  deriving DecidableEq, Repr

structure Entry where
  caseId : String
  category : String
  riskSlice : String
  case : Case
  expected : Expected

structure Dataset where
  datasetVersion : String
  cases : List Entry

/-- What ends an evaluation early. -/
inductive EvaluationError where
  /-- `sources_pool[sid]` of an unknown id. -/
  | missingSource (sourceId : String)
  | pipeline (e : PipelineError)
  /-- `next(...)` of no claim. -/
  | noRefundClaim
  deriving DecidableEq, Repr

/-- `sources_pool`. -/
def sourcesPool (sources : List Source) : Dict String Source :=
  Dict.ofPairs (sources.map fun s => (s.sourceId, s))

/-- `sources_pool[sid]`. -/
def poolSource (pool : Dict String Source) (id : String) : Except EvaluationError Source :=
  match pool.get id with
  | some s => .ok s
  | none => .error (.missingSource id)

/-! ## One case -/

structure CaseResult (R : Type) where
  caseId : String
  category : String
  riskSlice : String
  passed : Bool
  actualAuthorityDecision : String
  expectedAuthorityDecision : String
  requiresReview : Bool
  falseAuthorised : Bool
  wrongBindingAdmitted : Bool
  injectionFlagged : Bool
  injectionAlteredDecision : Bool
  meanRelevance : Option R
  groundednessPassed : Option Bool
  piiFindings : Nat

variable {R : Type} (rt : Runtime R)

/-- `sum(values) / len(values)`. -/
def mean (values : List R) : R :=
  rt.numerics.div (rt.numerics.sum values) (rt.numerics.ofNat values.length)

/-- The mean of the report's relevance scores, if it has any. -/
def meanRelevance (report : Option (GuardrailReport R)) : Option R :=
  match report with
  | none => none
  | some report =>
      let values := report.relevanceScores.values
      if values = [] then none else some (mean rt values)

/-- What is recorded of the artifacts of one case. -/
def resultOf (entry : Entry) (artifacts : CaseArtifacts R) (autoRefund : ClaimStatus) :
    CaseResult R :=
  let actual := decisionValue artifacts.authority.decision
  let requiresReview := artifacts.review.isSome
  let decisionCorrect := actual = entry.expected.authorityDecision
  let reviewCorrect := requiresReview = entry.expected.requiresReview
  let injectionAltered := entry.expected.injectionReasonPresent && actual = "ALLOW"
  { caseId := entry.caseId
    category := entry.category
    riskSlice := entry.riskSlice
    passed := decisionCorrect && reviewCorrect && autoRefund = .false && !injectionAltered
    actualAuthorityDecision := actual
    expectedAuthorityDecision := entry.expected.authorityDecision
    requiresReview := requiresReview
    falseAuthorised := actual = "ALLOW" && entry.expected.authorityDecision ≠ "ALLOW"
    -- against the references the dataset declares, not those of the run
    wrongBindingAdmitted := (artifacts.evidence.filter
      fun e => e.sourceId ∉ entry.case.sourceRefs).any fun e => e.entityBindingStatus = .valid
    injectionFlagged :=
      artifacts.evidence.any fun e => .promptInjectionContent ∈ e.validationReasons
    injectionAlteredDecision := injectionAltered
    meanRelevance := meanRelevance rt artifacts.guardrailReport
    groundednessPassed := artifacts.guardrailReport.map fun r => r.ungroundedCount = 0
    piiFindings := (artifacts.guardrailReport.map fun r =>
      r.inputFindings.countP fun f => f.category.startsWith "PII_").getD 0 }

/-- The case as it is run. -/
def pipelineCase (entry : Entry) (pipelineSourceRefs : Option (List String)) : Case :=
  { entry.case with sourceRefs := pipelineSourceRefs.getD entry.case.sourceRefs }

/-- `_case_result`. -/
def caseResult (entry : Entry) (pool : Dict String Source)
    (pipelineSourceRefs : Option (List String)) : Except EvaluationError (CaseResult R) := do
  let case := pipelineCase entry pipelineSourceRefs
  let sources ← case.sourceRefs.mapM (poolSource pool)
  let artifacts ← (runCasePipeline rt case sources {}).mapError .pipeline
  match artifacts.claims.find? fun c => c.claimType = .autoRefundPermitted with
  | none => .error .noRefundClaim
  | some autoRefund => .ok (resultOf rt entry artifacts autoRefund.status)

/-! ## All cases -/

structure SliceStats where
  total : Nat := 0
  passed : Nat := 0
  deriving DecidableEq, Repr

/-- `per_slice`. -/
def perSlice (results : List (CaseResult R)) : Dict String SliceStats :=
  results.foldl (fun slices r =>
    let stats := (slices.get r.riskSlice).getD {}
    slices.set r.riskSlice ⟨stats.total + 1, stats.passed + if r.passed then 1 else 0⟩) ∅

/-- `a / b if b else 0.0`. -/
def rate (a b : Nat) : ℚ := if b = 0 then 0 else a / b

structure AgentSlice where
  totalCases : Nat
  criticalRecall : ℚ

structure Metrics (R : Type) where
  datasetVersion : String
  totalCases : Nat
  criticalPositiveTotal : Nat
  criticalPositiveRecovered : Nat
  criticalRecall : ℚ
  negativeControlTotal : Nat
  negativeControlCorrect : Nat
  falseAuthorisationCount : Nat
  wrongEntityEvidenceAdmittedCount : Nat
  promptInjectionAlteredDecisionCount : Nat
  perSlice : Dict String SliceStats
  providerVersions : Dict String String
  perAgentSlice : Dict String AgentSlice
  meanRetrievalRelevance : R
  groundednessPassRate : ℚ
  piiRedactionCount : Nat
  results : List (CaseResult R)

/-- The metrics of the results. -/
def metricsOf (datasetVersion : String) (results : List (CaseResult R)) : Metrics R :=
  let criticalPositive := results.filter fun r => r.category = "critical_positive"
  let negativeControl := results.filter fun r => r.category = "negative_control"
  let recovered := criticalPositive.countP CaseResult.passed
  let criticalRecall := rate recovered criticalPositive.length
  let relevance := results.filterMap CaseResult.meanRelevance
  let groundedness := results.filterMap CaseResult.groundednessPassed
  { datasetVersion := datasetVersion
    totalCases := results.length
    criticalPositiveTotal := criticalPositive.length
    criticalPositiveRecovered := recovered
    criticalRecall := criticalRecall
    negativeControlTotal := negativeControl.length
    negativeControlCorrect := negativeControl.countP CaseResult.passed
    falseAuthorisationCount := results.countP CaseResult.falseAuthorised
    wrongEntityEvidenceAdmittedCount := results.countP CaseResult.wrongBindingAdmitted
    promptInjectionAlteredDecisionCount := results.countP CaseResult.injectionAlteredDecision
    perSlice := perSlice results
    providerVersions := Dict.ofPairs ((registeredAgents rt).map fun a => (a.agentId, a.configHash))
    perAgentSlice := Dict.ofPairs ((registeredAgents rt).map fun a =>
      (a.agentId, ⟨results.length, criticalRecall⟩))
    meanRetrievalRelevance :=
      if relevance = [] then rt.numerics.ofNat 0 else mean rt relevance
    groundednessPassRate := rate (groundedness.countP id) groundedness.length
    piiRedactionCount := (results.map CaseResult.piiFindings).sum
    results := results }

/-! ## The Wilson bound -/

/-- The arithmetic of `wilson_lower_bound`: also differences, whole powers and
    `max`. -/
structure Arithmetic (B : Type) extends Numerics B where
  sub : B → B → B
  pow : B → Nat → B
  max : B → B → B

/-- Doubles, as `wilson_lower_bound` computes with them. -/
def doubleArithmetic : Arithmetic Float where
  toNumerics := doubles
  sub := Float.sub
  pow x k := x.pow (Float.ofNat k)
  max a b := if a < b then b else a

section Wilson

variable {B : Type} (ar : Arithmetic B)

/-- `p`. -/
def observedRate (successes total : Nat) : B :=
  ar.div (ar.ofNat successes) (ar.ofNat total)

/-- The argument of `math.sqrt`. -/
def radicand (p : B) (total : Nat) (z : B) : B :=
  ar.div
    (ar.add (ar.mul p (ar.sub (ar.ofNat 1) p)) (ar.div (ar.pow z 2) (ar.ofNat (4 * total))))
    (ar.ofNat total)

/-- `wilson_lower_bound`. -/
def wilsonLowerBound (successes total : Nat) (z : B) : B :=
  if total = 0 then ar.ofNat 0
  else
    let p := observedRate ar successes total
    let denom := ar.add (ar.ofNat 1) (ar.div (ar.pow z 2) (ar.ofNat total))
    let centre := ar.add p (ar.div (ar.pow z 2) (ar.ofNat (2 * total)))
    let margin := ar.mul z (ar.sqrt (radicand ar p total z))
    ar.max (ar.ofNat 0) (ar.div (ar.sub centre margin) denom)

/-- The default of `z`, 1.96. -/
def defaultZ : B := ar.div (ar.ofNat 196) (ar.ofNat 100)

/-- `critical_recall_wilson_lower_bound_95` of an evaluation. -/
def criticalRecallWilsonLowerBound95 (m : Metrics R) : B :=
  wilsonLowerBound ar m.criticalPositiveRecovered m.criticalPositiveTotal (defaultZ ar)

end Wilson

/-! ## The run -/

/-- The references a run of the regression fixture is widened to. -/
def widenedRefs (pool : Dict String Source) (disableEntityBindingCheck : Bool) :
    Option (List String) :=
  if disableEntityBindingCheck then some (pool.items.map Prod.fst) else none

/-- `run_evaluation`, on a dataset and sources already loaded. -/
def runEvaluation (dataset : Dataset) (sources : List Source) (disableEntityBindingCheck : Bool) :
    Except EvaluationError (Metrics R) := do
  let pool := sourcesPool sources
  let results ← dataset.cases.mapM fun entry =>
    caseResult rt entry pool (widenedRefs pool disableEntityBindingCheck)
  return metricsOf rt dataset.datasetVersion results

/-! ## What the results are -/

/-- A traversal that succeeds is pointwise. -/
theorem forall₂_of_mapM {α β ε : Type} {f : α → Except ε β} {xs : List α} {ys : List β} :
    xs.mapM f = .ok ys ↔ List.Forall₂ (fun x y => f x = .ok y) xs ys := by
  induction xs generalizing ys with
  | nil =>
      rw [List.mapM_nil, List.forall₂_nil_left_iff]
      exact ⟨fun h => (Except.ok.inj h).symm, fun h => congrArg Except.ok h.symm⟩
  | cons x xs ih =>
      rw [List.mapM_cons, List.forall₂_cons_left_iff]
      cases hx : f x with
      | error e =>
          refine iff_of_false (fun h => by cases h) ?_
          rintro ⟨y, ys', hy, -⟩
          cases hy
      | ok y =>
          show Except.bind (xs.mapM f) (fun ys' => .ok (y :: ys')) = .ok ys ↔ _
          cases hxs : xs.mapM f with
          | error e =>
              refine iff_of_false (fun h => by cases h) ?_
              rintro ⟨-, ys', -, hys, -⟩
              cases hxs.symm.trans (ih.mpr hys)
          | ok ys' =>
              constructor
              · intro h
                obtain rfl := Except.ok.inj h
                exact ⟨y, ys', rfl, ih.mp hxs, rfl⟩
              · rintro ⟨z, zs, hz, hzs, rfl⟩
                obtain rfl := Except.ok.inj hz
                obtain rfl := Except.ok.inj (hxs.symm.trans (ih.mpr hzs))
                rfl

/-- What a traversal that succeeds returns. -/
theorem mem_of_mapM {α β ε : Type} {f : α → Except ε β} {xs : List α} {ys : List β}
    (h : xs.mapM f = .ok ys) {y : β} : y ∈ ys ↔ ∃ x ∈ xs, f x = .ok y := by
  have hall := forall₂_of_mapM.mp h
  clear h
  induction hall with
  | nil => simp
  | @cons x z xs zs hz _ ih =>
      rw [List.mem_cons, List.exists_mem_cons_iff, hz]
      exact or_congr ⟨fun heq => congrArg _ heq.symm, fun heq => (Except.ok.inj heq).symm⟩ ih

/-- A traversal that succeeds has a result for each item. -/
theorem exists_result {α β ε : Type} {f : α → Except ε β} {xs : List α} {ys : List β}
    (h : xs.mapM f = .ok ys) {x : α} (hx : x ∈ xs) : ∃ y ∈ ys, f x = .ok y := by
  have hall := forall₂_of_mapM.mp h
  clear h
  induction hall with
  | nil => cases hx
  | @cons x' y _ _ hy _ ih =>
      rcases List.mem_cons.mp hx with rfl | hx
      · exact ⟨y, List.mem_cons_self, hy⟩
      · obtain ⟨y', hy', hf⟩ := ih hx
        exact ⟨y', List.mem_cons_of_mem _ hy', hf⟩

theorem exists_forall₂ {α β : Type} {S : α → β → Prop} {xs : List α}
    (h : ∀ x ∈ xs, ∃ y, S x y) : ∃ ys, List.Forall₂ S xs ys := by
  induction xs with
  | nil => exact ⟨[], .nil⟩
  | cons x xs ih =>
      obtain ⟨⟨y, hy⟩, hrest⟩ := List.forall_mem_cons.mp h
      obtain ⟨ys, hys⟩ := ih hrest
      exact ⟨y :: ys, .cons hy hys⟩

theorem poolSource_eq_ok {pool : Dict String Source} {id : String} {s : Source} :
    poolSource pool id = .ok s ↔ pool.get id = some s := by
  rw [poolSource]
  cases pool.get id with
  | none =>
      refine iff_of_false (fun h => ?_) (fun h => ?_)
      · cases h
      · cases h
  | some t =>
      exact ⟨fun h => congrArg some (Except.ok.inj h), fun h => congrArg _ (Option.some.inj h)⟩

/-- A source is in the pool under its own id. -/
theorem sourceId_of_get {sources : List Source} {id : String} {s : Source}
    (h : (sourcesPool sources).get id = some s) : s.sourceId = id := by
  obtain ⟨before, after, hpairs, -⟩ := Dict.get_ofPairs.mp h
  have hmem : (id, s) ∈ sources.map fun s => (s.sourceId, s) := by simp [hpairs]
  obtain ⟨t, -, ht⟩ := List.mem_map.mp hmem
  obtain ⟨hid, rfl⟩ := Prod.ext_iff.mp ht
  exact hid

/-- Every id of the pool's sources leads to a source. -/
theorem exists_poolSource {sources : List Source} {s : Source} (h : s ∈ sources) :
    ∃ t, (sourcesPool sources).get s.sourceId = some t := by
  rw [sourcesPool, ← Option.isSome_iff_exists, Dict.get_ofPairs_eq, Option.isSome_map,
    List.find?_isSome]
  refine ⟨(s.sourceId, s), List.mem_reverse.mpr (List.mem_map.mpr ⟨s, h, rfl⟩), ?_⟩
  exact decide_eq_true rfl

variable {rt}

/-- What the evaluation reads of a run. -/
theorem run_read (rt : Runtime R) (c : Case) (sources : List Source) :
    ∃ a, runCasePipeline rt c sources {} = .ok a ∧ a.evidence = runEvidence rt c sources ∧
      a.authority.decision ≠ .allow ∧
      (a.claims.find? fun cl => cl.claimType = .autoRefundPermitted).map Claim.status
        = some .false := by
  have hunspent : ¬ ({} : RunBudget).Spent := by decide
  obtain ⟨report, entries, hrun, -⟩ := run_recorded rt c sources hunspent
  refine ⟨_, hrun, rfl, ?_, ?_⟩
  · show (caseRuling rt c (runEvidence rt c sources)).decision ≠ .allow
    rw [caseRuling_decision]
    split
    · intro h
      cases h
    · intro h
      cases h
  · show ((resolvedClaims rt c _).find? _).map _ = _
    rfl

/-- **ONE RESULT**: it records a run of the case on the sources of its
    references. -/
theorem caseResult_eq_ok {entry : Entry} {pool : Dict String Source}
    {refs : Option (List String)} {r : CaseResult R} :
    caseResult rt entry pool refs = .ok r ↔
      ∃ sources a, (pipelineCase entry refs).sourceRefs.mapM (poolSource pool) = .ok sources ∧
        runCasePipeline rt (pipelineCase entry refs) sources {} = .ok a ∧
        a.evidence = runEvidence rt (pipelineCase entry refs) sources ∧
        a.authority.decision ≠ .allow ∧ r = resultOf rt entry a .false := by
  rw [caseResult]
  cases hsources : (pipelineCase entry refs).sourceRefs.mapM (poolSource pool) with
  | error e =>
      refine iff_of_false (fun h => ?_) ?_
      · cases h
      · rintro ⟨sources, a, hsources', -⟩
        cases hsources'
  | ok sources =>
      obtain ⟨a, hrun, hevidence, hdecision, hrefund⟩ :=
        run_read rt (pipelineCase entry refs) sources
      obtain ⟨cl, hcl, hstatus⟩ := Option.map_eq_some_iff.mp hrefund
      show Except.bind (Except.mapError _ (runCasePipeline rt _ sources {})) _ = _ ↔ _
      rw [hrun]
      show (match a.claims.find? fun c => c.claimType = .autoRefundPermitted with
        | none => Except.error EvaluationError.noRefundClaim
        | some autoRefund => .ok (resultOf rt entry a autoRefund.status)) = .ok r ↔ _
      rw [hcl]
      show Except.ok (resultOf rt entry a cl.status) = .ok r ↔ _
      rw [hstatus]
      constructor
      · intro h
        exact ⟨sources, a, rfl, hrun, hevidence, hdecision, (Except.ok.inj h).symm⟩
      · rintro ⟨sources', a', hsources', hrun', -, -, rfl⟩
        obtain rfl := Except.ok.inj hsources'
        obtain rfl := Except.ok.inj (hrun.symm.trans hrun')
        rfl

/-- A result exists as soon as every reference leads to a source. -/
theorem caseResult_isOk {entry : Entry} {pool : Dict String Source} {refs : Option (List String)}
    (h : ∀ id ∈ (pipelineCase entry refs).sourceRefs, ∃ s, pool.get id = some s) :
    ∃ r, caseResult rt entry pool refs = .ok r := by
  obtain ⟨sources, hsources⟩ : ∃ sources,
      List.Forall₂ (fun id s => poolSource pool id = .ok s)
        (pipelineCase entry refs).sourceRefs sources := by
    refine exists_forall₂ fun id hid => ?_
    obtain ⟨s, hs⟩ := h id hid
    exact ⟨s, poolSource_eq_ok.mpr hs⟩
  obtain ⟨a, hrun, hevidence, hdecision, -⟩ := run_read rt (pipelineCase entry refs) sources
  exact ⟨_, caseResult_eq_ok.mpr ⟨sources, a, forall₂_of_mapM.mpr hsources, hrun, hevidence,
    hdecision, rfl⟩⟩

theorem decisionValue_ne_allow {d : AuthorityDecision} (h : d ≠ .allow) :
    decisionValue d ≠ "ALLOW" := by
  cases d with
  | allow => exact absurd rfl h
  | deny => decide
  | requireHuman => decide

/-- **NO CASE IS ALLOWED**, so no result counts as a false authorisation or as
    an altered decision. -/
theorem unauthorised_result {entry : Entry} {pool : Dict String Source}
    {refs : Option (List String)} {r : CaseResult R} (h : caseResult rt entry pool refs = .ok r) :
    r.falseAuthorised = false ∧ r.injectionAlteredDecision = false := by
  obtain ⟨sources, a, -, -, -, hdecision, rfl⟩ := caseResult_eq_ok.mp h
  have hvalue := decisionValue_ne_allow hdecision
  constructor
  · show (decide (decisionValue a.authority.decision = "ALLOW") && _) = false
    rw [decide_eq_false hvalue, Bool.false_and]
  · show (_ && decide (decisionValue a.authority.decision = "ALLOW")) = false
    rw [decide_eq_false hvalue, Bool.and_false]

theorem settled_binding (c : Case) (candidates : List Source) (s : Source) :
    (settledEvidence rt c candidates s).entityBindingStatus =
      if boundTo c s then .valid else .invalid := by
  rw [settledEvidence, markContradiction]
  split <;> rfl

/-- The items of a run that count as bound to the wrong entity are those of its
    sources that the dataset does not declare for the case. -/
theorem wrongBinding_iff {entry : Entry} {pool : Dict String Source}
    {refs : Option (List String)} {r : CaseResult R} (h : caseResult rt entry pool refs = .ok r) :
    r.wrongBindingAdmitted = true ↔ ∃ id ∈ (pipelineCase entry refs).sourceRefs, ∃ s,
      pool.get id = some s ∧ s.sourceId ∈ (pipelineCase entry refs).sourceRefs ∧
        s.sourceId ∉ entry.case.sourceRefs := by
  obtain ⟨sources, a, hsources, -, hevidence, -, rfl⟩ := caseResult_eq_ok.mp h
  have hmem : ∀ s, s ∈ sources ↔ ∃ id ∈ (pipelineCase entry refs).sourceRefs,
      pool.get id = some s := by
    intro s
    simp only [mem_of_mapM hsources, poolSource_eq_ok]
  show ((a.evidence.filter _).any _) = true ↔ _
  rw [hevidence, List.any_eq_true]
  constructor
  · rintro ⟨e, he, hvalid⟩
    obtain ⟨he, hout⟩ := List.mem_filter.mp he
    obtain ⟨s, hs, rfl⟩ := List.mem_map.mp he
    obtain ⟨hs, hbound⟩ := List.mem_filter.mp hs
    obtain ⟨id, hid, hget⟩ := (hmem s).mp hs
    rw [settled_sourceId] at hout
    exact ⟨id, hid, s, hget, of_decide_eq_true hbound, of_decide_eq_true hout⟩
  · rintro ⟨id, hid, s, hget, hbound, hout⟩
    have hs : s ∈ candidatesOf (pipelineCase entry refs) sources :=
      List.mem_filter.mpr ⟨(hmem s).mpr ⟨id, hid, hget⟩, decide_eq_true hbound⟩
    refine ⟨_, List.mem_filter.mpr ⟨List.mem_map.mpr ⟨s, hs, rfl⟩, ?_⟩, ?_⟩
    · rw [settled_sourceId]
      exact decide_eq_true hout
    · rw [settled_binding, boundTo, decide_eq_true hbound, if_pos rfl]
      exact decide_eq_true rfl

end Evaluation
