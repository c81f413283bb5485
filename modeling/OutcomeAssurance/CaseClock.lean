import OutcomeAssurance.CaseKeys

/-! # The clock columns of the case tables

    The columns that are filled from the clock, and that the reading endpoints
    return.  They are kept beside the tables, each under the key of its row: a
    run that is persisted writes them for all its rows, and nothing else does.
    The columns of a deleted row are left, and never read. -/

namespace CaseClock

open KeyedTable CaseModel PyRuntime Investigation Pipeline CaseStore CaseKeys
open ReviewModel (ReviewTask)

variable {R : Type}

/-- Table and column. -/
inductive Column where
  | caseCreatedAt
  | reviewCreatedAt
  | traceTimestamp
  | runStartedAt
  /-- Every investigation ends its runs, so the column is never null. -/
  | runEndedAt
  | stepTimestamp
  | reportCreatedAt
  deriving DecidableEq, Repr

/-- The values of the columns, under the keys of the rows. -/
abbrev Clock := Column → String → Instant

/-- What the clock shows whenever a run of a case reads it. -/
structure Readings where
  /-- `started_at`, which is read once for all agent runs. -/
  startedAt : Instant
  others : Clock
  deriving Inhabited

/-- The columns of the rows of a run. -/
def Readings.columns (t : Readings) : Clock
  | .runStartedAt, _ => t.startedAt
  | column, key => t.others column key

/-- The keys of the rows of a run that have the column. -/
def keys (a : CaseArtifacts R) : Column → List String
  | .caseCreatedAt => [a.case.caseId]
  | .reviewCreatedAt => a.review.toList.map ReviewTask.reviewId
  | .traceTimestamp => a.traceEvents.map TraceEvent.traceId
  | .runStartedAt | .runEndedAt => a.agentRuns.map AgentRun.agentRunId
  | .stepTimestamp => a.agentSteps.map AgentStep.stepId
  | .reportCreatedAt => a.guardrailReport.toList.map GuardrailReport.reportId

/-- The columns once the rows of a run are inserted. -/
def Clock.stamp (clock : Clock) (a : CaseArtifacts R) (t : Readings) : Clock :=
  fun column key => if key ∈ keys a column then t.columns column key else clock column key

/-- The tables with their clock columns. -/
structure Database (R : Type) where
  tables : Store R
  clock : Clock

/-- A database with its tables created. -/
def Database.empty : Database R := ⟨.empty, fun _ _ => 0⟩

/-! ## Stamps of one run -/

variable {a b : CaseArtifacts R} {clock : Clock} {t : Readings} {column : Column} {key : String}

theorem stamp_of_mem (h : key ∈ keys a column) :
    clock.stamp a t column key = t.columns column key :=
  if_pos h

theorem stamp_of_notMem (h : key ∉ keys a column) : clock.stamp a t column key = clock column key :=
  if_neg h

/-- Rows of different cases have different keys. -/
theorem keys_disjoint {ρ : Type} [Keyed ρ String] [CaseRows ρ] {c c' : String}
    {rows rows' : List ρ} (hne : c ≠ c') (h : ∀ r ∈ rows, Owns c r) (h' : ∀ r ∈ rows', Owns c' r)
    (hkey : key ∈ rows.map Keyed.key) : key ∉ rows'.map Keyed.key := by
  intro hkey'
  obtain ⟨r, hr, rfl⟩ := List.mem_map.mp hkey
  obtain ⟨r', hr', hsame⟩ := List.mem_map.mp hkey'
  exact apart (h r hr) (h' r' hr') hne (Keyed.clash_of_key hsame.symm)

/-- **A RUN STAMPS NO OTHER CASE.** -/
theorem keys_apart (ha : Shaped a) (hb : Shaped b) (hne : b.case.caseId ≠ a.case.caseId)
    (h : key ∈ keys b column) : key ∉ keys a column := by
  cases column with
  | caseCreatedAt =>
      intro h'
      exact hne ((List.mem_singleton.mp h).symm.trans (List.mem_singleton.mp h'))
  | reviewCreatedAt => exact keys_disjoint hne hb.review.1 ha.review.1 h
  | traceTimestamp => exact keys_disjoint hne hb.trace.1 ha.trace.1 h
  | runStartedAt | runEndedAt => exact keys_disjoint hne hb.runs.1 ha.runs.1 h
  | stepTimestamp => exact keys_disjoint hne hb.steps.1 ha.steps.1 h
  | reportCreatedAt => exact keys_disjoint hne hb.report.1 ha.report.1 h

end CaseClock
