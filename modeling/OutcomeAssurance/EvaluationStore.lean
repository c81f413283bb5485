import OutcomeAssurance.CaseStore
import OutcomeAssurance.ReleaseGate
import OutcomeAssurance.Scripts

/-! # Stored evaluations and release records

    The rows of `evaluation_runs` and `release_records` in `app/orm_models.py`,
    how `app/persistence.py` writes them, and the endpoints of `app/api.py` that
    do.  Each row is committed on its own: `GET /api/releases/latest` commits
    four times.  What a dictionary read with `.get` never holds is `none`. -/

namespace EvaluationStore

open CaseModel (Source)
open CaseStore (keyedBy)
open Evaluation Interleaving KeyedTable PyDict PyRuntime ReleaseGate Scripts

variable {R : Type}

/-! ## An evaluation of a process -/

/-- The process that serves a request: its interpreter, its files and what
    `git_sha` and `APP_ENVIRONMENT` say. -/
structure Site (R : Type) where
  runtime : Runtime R
  arithmetic : Arithmetic R
  dataset : Dataset
  sources : List Source
  codeVersion : Option String
  environment : String := "dev"

/-- The dictionary of `run_evaluation`. -/
structure Output (R : Type) where
  metrics : Metrics R
  criticalRecallWilsonLowerBound95 : R
  codeVersion : Option String
  environment : String

/-- `{k: v for k, v in evaluation.items() if k != "results"}`. -/
def Output.withoutResults (o : Output R) : Output R :=
  { o with metrics := { o.metrics with results := [] } }

/-- `run_evaluation`, in the process. -/
def Site.runEvaluation (site : Site R) (disableEntityBindingCheck : Bool) :
    Except EvaluationError (Output R) :=
  (Evaluation.runEvaluation site.runtime site.dataset site.sources disableEntityBindingCheck).map
    fun m => ⟨m, Evaluation.criticalRecallWilsonLowerBound95 site.arithmetic m, site.codeVersion,
      site.environment⟩

/-! ## The rows -/

structure EvaluationRun (R : Type) where
  evaluationId : String
  datasetVersion : String
  totalCases : Nat
  criticalPositiveTotal : Nat
  criticalPositiveRecovered : Nat
  criticalRecall : ℚ
  criticalRecallWilsonLowerBound95 : R
  falseAuthorisationCount : Nat
  wrongEntityEvidenceAdmittedCount : Nat
  promptInjectionAlteredDecisionCount : Nat
  perSlice : Dict String SliceStats
  createdAt : Nat
  codeVersion : Option String
  environment : String
  providerVersions : Dict String String
  perAgentSlice : Dict String AgentSlice
  baselineEvaluationId : Option String
  meanRetrievalRelevance : R
  groundednessPassRate : ℚ
  piiRedactionCount : Nat

structure ReleaseRecord where
  releaseId : String
  configName : String
  decision : GateDecision
  reasonCodes : List GateReason
  thresholdsVersion : String
  datasetVersion : String
  evaluationId : Option String
  createdAt : Nat
  approvedBy : Option String
  approvedAt : Option Nat
  approvalNotes : Option String
  rollbackOf : Option String
  agentDefinitionIds : List String

instance : Keyed (EvaluationRun R) String := keyedBy EvaluationRun.evaluationId

instance : Keyed ReleaseRecord String := keyedBy ReleaseRecord.releaseId

/-- The row of `persist_evaluation_run`. -/
def evaluationRow (evaluationId : String) (now : Nat) (o : Output R) : EvaluationRun R where
  evaluationId := evaluationId
  datasetVersion := o.metrics.datasetVersion
  totalCases := o.metrics.totalCases
  criticalPositiveTotal := o.metrics.criticalPositiveTotal
  criticalPositiveRecovered := o.metrics.criticalPositiveRecovered
  criticalRecall := o.metrics.criticalRecall
  criticalRecallWilsonLowerBound95 := o.criticalRecallWilsonLowerBound95
  falseAuthorisationCount := o.metrics.falseAuthorisationCount
  wrongEntityEvidenceAdmittedCount := o.metrics.wrongEntityEvidenceAdmittedCount
  promptInjectionAlteredDecisionCount := o.metrics.promptInjectionAlteredDecisionCount
  perSlice := o.metrics.perSlice
  createdAt := now
  codeVersion := o.codeVersion
  environment := o.environment
  providerVersions := o.metrics.providerVersions
  perAgentSlice := o.metrics.perAgentSlice
  baselineEvaluationId := none
  meanRetrievalRelevance := o.metrics.meanRetrievalRelevance
  groundednessPassRate := o.metrics.groundednessPassRate
  piiRedactionCount := o.metrics.piiRedactionCount

/-- The row of `persist_release_record`. -/
def releaseRow (releaseId : String) (now : Nat) (release : GateReport R) (evaluationId : String) :
    ReleaseRecord where
  releaseId := releaseId
  configName := release.configName
  decision := release.decision
  reasonCodes := release.reasonCodes
  thresholdsVersion := release.thresholdsVersion
  datasetVersion := release.datasetVersion
  evaluationId := some evaluationId
  createdAt := now
  approvedBy := none
  approvedAt := none
  approvalNotes := none
  rollbackOf := none
  agentDefinitionIds := release.agentDefinitionIds

/-! ## The store -/

structure Store (R : Type) where
  evaluationRuns : Table (EvaluationRun R)
  releaseRecords : Table ReleaseRecord

/-- No row. -/
def Store.empty : Store R := ⟨.empty, .empty⟩

/-- `session.add(row)` of either table. -/
inductive Row (R : Type) where
  | evaluation (row : EvaluationRun R)
  | release (record : ReleaseRecord)

/-- The commit of one row; `none` is an `IntegrityError`. -/
def commit : Row R → Store R → Option (Store R)
  | .evaluation row, s =>
    (s.evaluationRuns.insert [row]).map fun t => { s with evaluationRuns := t }
  | .release record, s =>
    (s.releaseRecords.insert [record]).map fun t => { s with releaseRecords := t }

/-! ## The endpoints -/

/-- What the machine gives to a row: `uuid.uuid4().hex[:12]` and the clock. -/
structure Draw where
  hex : String
  now : Nat

inductive Endpoint where
  | runEvaluationEndpoint (evaluation : Draw)
  | getEvaluation (evaluationId : String)
  | getLatestRelease (r1Eval r1Release r2Eval r2Release : Draw)

inductive Response (R : Type) where
  | evaluated (evaluationId : String) (evaluation : Output R)
  | evaluationRun (row : EvaluationRun R)
  /-- 404, `EVALUATION_NOT_FOUND`. -/
  | evaluationNotFound (evaluationId : String)
  | latestRelease (releaseId : String) (r1 : GateReport R) (regressionId : String)
      (r2 : GateReport R)
  /-- 500: the evaluation raised. -/
  | evaluationFailed (e : EvaluationError)
  /-- 500: an `IntegrityError`. -/
  | notCommitted

abbrev Work (R : Type) := Script (Row R) (Store R) (Response R)

/-- What follows an evaluation, unless it raises. -/
def orFailed {α : Type} (result : Except EvaluationError α) (next : α → Work R) : Work R :=
  match result with
  | .error e => .answered (.evaluationFailed e)
  | .ok a => next a

def evaluationId (d : Draw) : String := "EVAL-" ++ d.hex

def releaseId (d : Draw) : String := "RELEASE-" ++ d.hex

/-- `run_evaluation_endpoint`. -/
def runEvaluationEndpoint (site : Site R) (d : Draw) : Work R :=
  orFailed (site.runEvaluation false) fun evaluation =>
    .commits (.evaluation (evaluationRow (evaluationId d) d.now evaluation)) <|
    .answered (.evaluated (evaluationId d) evaluation.withoutResults)

/-- `get_evaluation`. -/
def getEvaluation (evaluationId : String) : Work R :=
  .reads fun s =>
    match s.evaluationRuns.get evaluationId with
    | none => .evaluationNotFound evaluationId
    | some row => .evaluationRun row

/-- One half of `get_latest_release`: the gate evaluates once more before the
    two rows are committed. -/
def publish (site : Site R) (disableEntityBindingCheck : Bool)
    (gate : Except EvaluationError (GateReport R)) (eval release : Draw)
    (next : GateReport R → Work R) : Work R :=
  orFailed (site.runEvaluation disableEntityBindingCheck) fun evaluation =>
    orFailed gate fun report =>
      .commits (.evaluation (evaluationRow (evaluationId eval) eval.now evaluation)) <|
      .commits (.release (releaseRow (releaseId release) release.now report (evaluationId eval))) <|
      next report

/-- `get_latest_release`. -/
def getLatestRelease (site : Site R) (r1Eval r1Release r2Eval r2Release : Draw) : Work R :=
  publish site false
    (runReleaseGate site.runtime site.arithmetic site.dataset site.sources) r1Eval r1Release
    fun r1 =>
      publish site true
        (runRegressionReleaseGate site.runtime site.arithmetic site.dataset site.sources)
        r2Eval r2Release fun r2 =>
          .answered (.latestRelease (releaseId r1Release) r1 (releaseId r2Release) r2)

/-- A request, and the process that serves it. -/
structure Call (R : Type) where
  site : Site R
  endpoint : Endpoint

/-- What a request does. -/
def Call.work (call : Call R) : Work R :=
  match call.endpoint with
  | .runEvaluationEndpoint d => runEvaluationEndpoint call.site d
  | .getEvaluation id => getEvaluation id
  | .getLatestRelease r1Eval r1Release r2Eval r2Release =>
    getLatestRelease call.site r1Eval r1Release r2Eval r2Release

variable {ι : Type} [DecidableEq ι]

/-- No request has begun, and nothing is stored. -/
def opened (calls : ι → Call R) : Config ι (Store R) (Work R) :=
  ⟨Store.empty, fun i => (calls i).work⟩

/-- The requests after some of their steps, in the order of the schedule.  A
    request that stops takes no more steps. -/
def after (calls : ι → Call R) (schedule : List ι) : Config ι (Store R) (Work R) :=
  Runs.run (Scripts.fire commit .notCommitted) (opened calls) schedule

end EvaluationStore
